import ChartFeed.Json.Decoder

/-!
# Documents that write values down

* `Doc.Writes` : a document writes a value down, the fields of its objects in any order.
* `Doc.writes_ofJson` : the document of a value does.
* `Decoder.Reads` : a decoder reads a value off every document that writes it down.
* `Decoder.Fills` : a field of a record is filled from a field of an object.
* `Decoder.reads_record` : a record is read off its fields in any order.
-/

namespace ChartFeed

mutual

/-- A document writes a value down; the fields of objects may stand in any order. -/
inductive Doc.Writes : Doc → Json → Prop where
  | null : Doc.Writes .null .null
  | bool (b : Bool) : Doc.Writes (.bool b) (.bool b)
  | int (n : Int) : Doc.Writes (.int n) (.int n)
  | float (x : Float) : Doc.Writes (.float x) (.float x)
  | text (s : String) : Doc.Writes (.text s) (.text s)
  | list {ds : List Doc} {js : List Json} (h : Doc.WritesItems ds js) :
    Doc.Writes (.list ds) (.list js)
  | object {ds : List (Option String × Doc)} {js written : List (String × Json)}
    (order : written.Perm js) (h : Doc.WritesFields ds written) :
    Doc.Writes (.object ds) (.object js)

/-- Documents write values down, one after the other. -/
inductive Doc.WritesItems : List Doc → List Json → Prop where
  | nil : Doc.WritesItems [] []
  | cons {d : Doc} {j : Json} {ds : List Doc} {js : List Json} (h : Doc.Writes d j)
    (hs : Doc.WritesItems ds js) : Doc.WritesItems (d :: ds) (j :: js)

/-- Documents write the values of fields down, one after the other and each under its key. -/
inductive Doc.WritesFields : List (Option String × Doc) → List (String × Json) → Prop where
  | nil : Doc.WritesFields [] []
  | cons {d : Doc} {j : Json} {ds : List (Option String × Doc)} {js : List (String × Json)}
    (key : String) (h : Doc.Writes d j) (hs : Doc.WritesFields ds js) :
    Doc.WritesFields ((some key, d) :: ds) ((key, j) :: js)

end

namespace Doc

mutual

theorem writes_ofJson : (j : Json) → (ofJson j).Writes j
  | .null => .null
  | .bool b => .bool b
  | .int n => .int n
  | .float x => .float x
  | .text s => .text s
  | .list items => .list (writesItems_ofItems items)
  | .object fields => .object (.refl fields) (writesFields_ofFields fields)
termination_by structural j => j

theorem writesItems_ofItems : (js : List Json) → WritesItems (ofItems js) js
  | [] => .nil
  | j :: js => .cons (writes_ofJson j) (writesItems_ofItems js)
termination_by structural js => js

theorem writesFields_ofFields : (js : List (String × Json)) → WritesFields (ofFields js) js
  | [] => .nil
  | (key, j) :: js => .cons key (writes_ofJson j) (writesFields_ofFields js)
termination_by structural js => js

end

/-! ## Height -/

theorem heightFields_perm {fs gs : List (String × Json)} (h : fs.Perm gs) :
    heightFields (ofFields fs) = heightFields (ofFields gs) := by
  induction h with
  | nil => rfl
  | cons f _ ih => simp only [ofFields, heightFields, ih]
  | swap f g fs =>
    simp only [ofFields, heightFields]
    omega
  | trans _ _ ih ih' => exact ih.trans ih'

mutual

theorem Writes.height_eq : {d : Doc} → {j : Json} → d.Writes j → d.height = (ofJson j).height
  | _, _, .null | _, _, .bool _ | _, _, .int _ | _, _, .float _ | _, _, .text _ => rfl
  | _, _, .list h => congrArg (· + 1) h.height_eq
  | _, _, .object order h => congrArg (· + 1) (h.height_eq.trans (heightFields_perm order))

theorem WritesItems.height_eq : {ds : List Doc} → {js : List Json} → WritesItems ds js →
    heightItems ds = heightItems (ofItems js)
  | _, _, .nil => rfl
  | _, _, .cons h hs => by rw [heightItems, h.height_eq, hs.height_eq, ofItems, heightItems]

theorem WritesFields.height_eq : {ds : List (Option String × Doc)} → {js : List (String × Json)} →
    WritesFields ds js → heightFields ds = heightFields (ofFields js)
  | _, _, .nil => rfl
  | _, _, .cons _ h hs => by rw [heightFields, h.height_eq, hs.height_eq, ofFields, heightFields]

end

theorem height_le_heightItems {j : Json} {js : List Json} (h : j ∈ js) :
    (ofJson j).height ≤ heightItems (ofItems js) := by
  induction js with
  | nil => cases h
  | cons k js ih =>
    rw [ofItems, heightItems]
    cases h with
    | head => omega
    | tail _ h =>
      have := ih h
      omega

end Doc

namespace Decoder

variable {α σ : Type}

/-! ## Values -/

/-- A decoder reads a value off every document that writes it down as a JSON value. -/
def Reads (decode : Decoder α) (j : Json) (a : α) : Prop := ∀ d : Doc, d.Writes j → decode d = .ok a

/-- No document writes down two values that different things are read off. -/
theorem Reads.unique {decode : Decoder α} {j k : Json} {a b : α} (ha : decode.Reads j a)
    (hb : decode.Reads k b) {d : Doc} (hj : d.Writes j) (hk : d.Writes k) : a = b :=
  Except.ok.inj ((ha d hj).symm.trans (hb d hk))

theorem reads_text (s : String) : text.Reads (.text s) s := by
  rintro _ ⟨⟩
  rfl

theorem reads_bool (b : Bool) : bool.Reads (.bool b) b := by
  rintro _ ⟨⟩
  rfl

theorem reads_natBelow {bound n : Nat} (h : n < bound) : (natBelow bound).Reads (.ofNat n) n := by
  rintro _ ⟨⟩
  exact if_pos ⟨Int.natCast_nonneg n, Int.ofNat_lt.mpr h⟩

theorem reads_int64 {n : Int} (h : -0x8000000000000000 ≤ n ∧ n < 0x8000000000000000) :
    int64.Reads (.int n) n := by
  rintro _ ⟨⟩
  exact if_pos h

theorem reads_tagged {ofTag : String → Option α} {name : String} {a : α} (h : ofTag name = some a) :
    (tagged ofTag).Reads (.text name) a := by
  rintro _ ⟨⟩
  show tag ofTag name = .ok a
  rw [tag, h]

theorem reads_json_items {js : List Json} (h : ∀ j ∈ js, json.Reads j j) {ds : List Doc}
    (hds : Doc.WritesItems ds js) : Json.ofDocItems ds = .ok js := by
  induction js generalizing ds with
  | nil =>
    cases hds
    rfl
  | cons j js ih =>
    cases hds with
    | cons hd hds =>
      have hrest := ih (fun k hk => h k (List.mem_cons_of_mem j hk)) hds
      rw [Json.ofDocItems, show Json.ofDoc _ = .ok j from h j List.mem_cons_self _ hd, hrest]
      rfl

theorem reads_json_list {js : List Json} (h : ∀ j ∈ js, json.Reads j j) :
    json.Reads (.list js) (.list js) := by
  intro d hd
  cases hd with
  | list hds =>
    show Json.ofDoc _ = _
    rw [Json.ofDoc, reads_json_items h hds]
    rfl

theorem reads_whole {value : Json → Option α} {j : Json} {a : α} (hj : json.Reads j j)
    (h : value j = some a) : (whole value).Reads j a := by
  intro d hd
  rw [whole, show Json.ofDoc d = .ok j from hj d hd]
  simp only [bind, Except.bind, h, pure, Except.pure]

theorem Reads.optional {decode : Decoder α} {j : Json} {a : α} (h : decode.Reads j a)
    (hnull : j ≠ .null) : (optional decode).Reads j (some a) := by
  intro d hd
  have hread := h d hd
  cases hd with
  | null => exact absurd rfl hnull
  | _ => exact congrArg (some <$> ·) hread

theorem reads_items {item : Decoder α} {toJson : α → Json} {as : List α}
    (h : ∀ a ∈ as, item.Reads (toJson a) a) {ds : List Doc}
    (hds : Doc.WritesItems ds (as.map toJson)) : items item ds = .ok as := by
  induction as generalizing ds with
  | nil =>
    cases hds
    rfl
  | cons a as ih =>
    rw [List.map_cons] at hds
    cases hds with
    | cons hd hds =>
      have hrest := ih (fun b hb => h b (List.mem_cons_of_mem a hb)) hds
      rw [items, h a List.mem_cons_self _ hd, hrest]
      rfl

theorem reads_listOf {item : Decoder α} {toJson : α → Json} {as : List α}
    (h : ∀ a ∈ as, item.Reads (toJson a) a) :
    (listOf item).Reads (.list (as.map toJson)) as := by
  rintro _ ⟨⟩
  exact reads_items h ‹_›

/-! ## Records -/

/-- A field of an object fills a record further: whatever document writes its value down, the record
that is filled under some names becomes the one that is filled under its name too. -/
def Fills (known : List (Field σ)) (filled : List String → σ) (f : String × Json) : Prop :=
  ∃ field, known.find? (·.name == f.1) = some field ∧
    ∀ d : Doc, d.Writes f.2 → ∀ names, field.put d (filled names) = .ok (filled (f.1 :: names))

variable {known : List (Field σ)} {filled : List String → σ} {name : String} {j : Json}

theorem fills_of_find? {required : Bool} {value : Decoder α} {set : α → σ → σ} {a : α}
    (hfind : known.find? (·.name == name) =
      some ⟨name, required, fun d s => return set (← value d) s⟩)
    (hvalue : value.Reads j a) (hset : ∀ names, set a (filled names) = filled (name :: names)) :
    Fills known filled (name, j) := by
  refine ⟨_, hfind, fun d hd names => ?_⟩
  dsimp only
  rw [hvalue d hd, ← hset names]
  rfl

theorem fills_field? {key : String} {toJson : α → Json} {o : Option α}
    (h : ∀ a, o = some a → Fills known filled (key, toJson a)) :
    ∀ f ∈ Json.field? key (o.map toJson), Fills known filled f := by
  cases o with
  | none => simp [Json.field?]
  | some a => simpa [Json.field?] using h a rfl

theorem mem_keys_field? {key name : String} {o : Option Json} :
    name ∈ (Json.field? key o).map Prod.fst ↔ name = key ∧ o.isSome = true := by
  cases o <;> simp [Json.field?]

theorem keys_field?_sublist (key : String) (o : Option Json) :
    ((Json.field? key o).map Prod.fst).Sublist [key] := by
  cases o <;> simp [Json.field?]

theorem ite_isSome (o : Option α) : (if o.isSome = true then o else none) = o := by
  cases o <;> rfl

theorem readFields_of_fills {js : List (String × Json)} {ds : List (Option String × Doc)}
    (hds : Doc.WritesFields ds js) (hfills : ∀ f ∈ js, Fills known filled f) {seen : List String}
    (hnodup : (seen ++ js.map Prod.fst).Nodup) :
    ∃ names, names.Perm (seen ++ js.map Prod.fst) ∧
      readFields known seen ds (filled seen) = .ok (names, filled names) := by
  -- the names that were seen are collected in reverse, so they are known up to a permutation
  induction js generalizing ds seen with
  | nil =>
    cases hds
    exact ⟨seen, by rw [List.map_nil, List.append_nil], rfl⟩
  | cons f js ih =>
    obtain ⟨key, j⟩ := f
    cases hds with
    | cons key hd hds =>
      obtain ⟨field, hfind, hput⟩ := hfills _ List.mem_cons_self
      have hperm : (key :: seen ++ js.map Prod.fst).Perm (seen ++ key :: js.map Prod.fst) :=
        List.perm_middle.symm
      have hnew : seen.contains key = false := by
        have hdisjoint := List.nodup_append.mp hnodup
        simpa using fun h => hdisjoint.2.2 key h key List.mem_cons_self rfl
      obtain ⟨names, hnames, hread⟩ := ih hds (fun f hf => hfills f (List.mem_cons_of_mem _ hf))
        (hperm.nodup_iff.mpr hnodup)
      refine ⟨names, hnames.trans hperm, ?_⟩
      simp only [readFields, hfind, hnew, Bool.false_eq_true, if_false, hput _ hd seen]
      exact hread

theorem reads_record (filled : List String → σ) {js : List (String × Json)} {a : σ}
    (hfills : ∀ f ∈ js, Fills known filled f) (hnodup : (js.map Prod.fst).Nodup)
    (hneeded : ∀ field ∈ known, field.required = true → field.name ∈ js.map Prod.fst)
    (hfull : ∀ names : List String, (∀ name, name ∈ names ↔ name ∈ js.map Prod.fst) →
      filled names = a) {blank : σ} (hblank : filled [] = blank) :
    (record known blank).Reads (.object js) a := by
  subst hblank
  intro d hd
  cases hd with
  | object order hds =>
    have horder := order.map Prod.fst
    obtain ⟨names, hnames, hread⟩ := readFields_of_fills hds
      (fun f hf => hfills f (order.mem_iff.mp hf))
      (show ([] ++ _).Nodup from horder.nodup_iff.mpr hnodup)
    have hmem (name : String) : name ∈ names ↔ name ∈ js.map Prod.fst :=
      (hnames.trans horder).mem_iff
    have hall : known.all (fun field => !field.required || names.contains field.name) = true := by
      refine List.all_eq_true.mpr fun field hfield => ?_
      cases hrequired : field.required with
      | false => rfl
      | true => simpa using (hmem field.name).mpr (hneeded field hfield hrequired)
    rw [record, hread]
    simp only [bind, Except.bind, hall, if_true, pure, Except.pure, hfull names hmem]

end Decoder

end ChartFeed
