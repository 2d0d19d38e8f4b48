import ChartFeed.Json.Printer
import ChartFeed.Json.Reader
import Mathlib.Data.List.TakeDrop
import Mathlib.Data.List.TakeWhile

/-!
# Written texts read back

What the printer writes is read as the value it was written from, if the numbers in it are.

* `Doc.Stops`, `Doc.readNumber_append` : a number is read alike alone and in front of such a text.
* `Doc.readText_quote` : a text between quotes is read back, whatever was escaped in it.
* `Json.ReadsBack` : the whole text of a value is read as the value.
* `Json.readsBack_int`, `Json.readsBack_float` : numbers that read back.
* `Json.IsLegible.readsBack` : so does every value that is not nested too deeply and in which the
  numbers do.
-/

namespace ChartFeed

namespace Doc

/-! ## Numbers

A number ends where the text stops to look like one, so that what was read of a number alone is
read of it in front of other text too. -/

/-- A text that does not continue a number. -/
def Stops (rest : List Char) : Prop :=
  ∀ c ∈ rest.head?, c.isDigit = false ∧ c ≠ '.' ∧ c ≠ 'e' ∧ c ≠ 'E'

variable {cs ds rest left : List Char}

theorem span_append {p : Char → Bool} (h : ∀ c ∈ rest.head?, p c = false) (cs : List Char) :
    (cs ++ rest).span p = ((cs.span p).1, (cs.span p).2 ++ rest) := by
  simp only [List.span_eq_takeWhile_dropWhile]
  induction cs with
  | nil =>
    cases rest with
    | nil => rfl
    | cons c rest => simp [h c rfl]
  | cons c cs ih =>
    by_cases hc : p c = true
    · simpa [hc] using ih
    · simp [hc]

theorem Stops.span_isDigit (h : Stops rest) (cs : List Char) :
    (cs ++ rest).span Char.isDigit =
      ((cs.span Char.isDigit).1, (cs.span Char.isDigit).2 ++ rest) :=
  span_append (fun c hc => (h c hc).1) cs

theorem readWhole_append (h : Stops rest) (hread : readWhole cs = some (ds, left)) :
    readWhole (cs ++ rest) = some (ds, left ++ rest) := by
  unfold readWhole at hread ⊢
  rw [h.span_isDigit]
  generalize cs.span Char.isDigit = digits at hread ⊢
  split at hread <;> simp_all

theorem readFraction_of_ne {c : Char} (h : c ≠ '.') :
    readFraction (c :: cs) = some ([], c :: cs) := by
  simp [readFraction, h]

theorem readFraction_append (h : Stops rest) (hread : readFraction cs = some (ds, left)) :
    readFraction (cs ++ rest) = some (ds, left ++ rest) := by
  cases cs with
  | nil =>
    obtain ⟨rfl, rfl⟩ : [] = ds ∧ [] = left := by simpa [readFraction] using hread
    cases rest with
    | nil => rfl
    | cons c rest => exact readFraction_of_ne (h c rfl).2.1
  | cons c cs =>
    by_cases hpoint : c = '.'
    · subst hpoint
      simp only [readFraction, List.cons_append] at hread ⊢
      rw [h.span_isDigit]
      generalize cs.span Char.isDigit = digits at hread ⊢
      split at hread <;> simp_all
    · obtain ⟨rfl, rfl⟩ : [] = ds ∧ c :: cs = left := by
        simpa [readFraction_of_ne hpoint] using hread
      exact readFraction_of_ne hpoint

theorem readExponentDigits_append (h : Stops rest) {negative : Bool} {e : Option Int}
    (hread : readExponentDigits negative cs = some (e, left)) :
    readExponentDigits negative (cs ++ rest) = some (e, left ++ rest) := by
  unfold readExponentDigits at hread ⊢
  rw [h.span_isDigit]
  generalize cs.span Char.isDigit = digits at hread ⊢
  split at hread <;> simp_all

theorem readExponent_of_ne {c : Char} (h : c ≠ 'e' ∧ c ≠ 'E') :
    readExponent (c :: cs) = some (none, c :: cs) := by
  simp [readExponent, h]

theorem readExponent_of_unsigned {mark c : Char} (hmark : mark = 'e' ∨ mark = 'E') (hminus : c ≠ '-')
    (hplus : c ≠ '+') : readExponent (mark :: c :: cs) = readExponentDigits false (c :: cs) := by
  obtain rfl | rfl := hmark <;> simp [readExponent, hminus, hplus]

theorem readExponent_append (h : Stops rest) {e : Option Int}
    (hread : readExponent cs = some (e, left)) :
    readExponent (cs ++ rest) = some (e, left ++ rest) := by
  cases cs with
  | nil =>
    obtain ⟨rfl, rfl⟩ : none = e ∧ [] = left := by simpa [readExponent] using hread
    cases rest with
    | nil => rfl
    | cons c rest => exact readExponent_of_ne (h c rfl).2.2
  | cons mark cs =>
    by_cases hmark : mark = 'e' ∨ mark = 'E'
    · -- a digit or a sign has to follow the mark, so that the text does not end there
      cases cs with
      | nil => obtain rfl | rfl := hmark <;> cases hread
      | cons c cs =>
        by_cases hminus : c = '-'
        · subst hminus
          obtain rfl | rfl := hmark <;> exact readExponentDigits_append h hread
        by_cases hplus : c = '+'
        · subst hplus
          obtain rfl | rfl := hmark <;> exact readExponentDigits_append h hread
        · rw [readExponent_of_unsigned hmark hminus hplus] at hread
          exact (readExponent_of_unsigned hmark hminus hplus).trans
            (readExponentDigits_append h hread)
    · rw [not_or] at hmark
      obtain ⟨rfl, rfl⟩ : none = e ∧ mark :: cs = left := by
        simpa [readExponent_of_ne hmark] using hread
      exact readExponent_of_ne hmark

theorem readNumber_append (h : Stops rest) {negative : Bool} {d : Doc}
    (hread : readNumber negative cs = (d, some left)) :
    readNumber negative (cs ++ rest) = (d, some (left ++ rest)) := by
  unfold readNumber at hread ⊢
  cases hwhole : readWhole cs with
  | none => simp [hwhole] at hread
  | some found =>
    obtain ⟨whole, cs⟩ := found
    simp only [hwhole, readWhole_append h hwhole] at hread ⊢
    cases hfraction : readFraction cs with
    | none => simp [hfraction] at hread
    | some found =>
      obtain ⟨fraction, cs⟩ := found
      simp only [hfraction, readFraction_append h hfraction] at hread ⊢
      cases hexponent : readExponent cs with
      | none => simp [hexponent] at hread
      | some found =>
        obtain ⟨exponent, cs⟩ := found
        simp only [hexponent, readExponent_append h hexponent] at hread ⊢
        split at hread <;> simp_all

theorem exists_toDigits (n : Nat) : ∃ c cs, Nat.toDigits 10 n = c :: cs ∧ c.isDigit = true := by
  obtain ⟨c, cs, hds⟩ := List.exists_cons_of_ne_nil (Nat.toDigits_ne_nil (n := n) (b := 10))
  have hmem : c ∈ Nat.toDigits 10 n := by simp [hds]
  exact ⟨c, cs, hds, Nat.isDigit_of_mem_toDigits (by decide) (by decide) hmem⟩

theorem head?_toDigits {n : Nat} (h : 0 < n) : (Nat.toDigits 10 n).head? ≠ some '0' := by
  induction n using Nat.strongRecOn with
  | ind n ih =>
    by_cases hlt : n < 10
    · have table : ∀ m : Fin 10, m.val ≠ 0 → m.val.digitChar ≠ '0' := by decide
      have hdigit : n.digitChar ≠ '0' := table ⟨n, hlt⟩ (Nat.ne_of_gt h)
      simpa [Nat.toDigits_of_lt_base hlt] using hdigit
    · obtain ⟨c, cs, hds, -⟩ := exists_toDigits (n / 10)
      have hfirst := ih (n / 10) (by omega) (by omega)
      rw [hds] at hfirst
      rw [Nat.toDigits_of_base_le (by decide) (by omega), hds]
      exact hfirst

theorem readWhole_toDigits (n : Nat) :
    readWhole (Nat.toDigits 10 n) = some (Nat.toDigits 10 n, []) := by
  have hdigits : ∀ c ∈ Nat.toDigits 10 n, c.isDigit = true :=
    fun c hc => Nat.isDigit_of_mem_toDigits (by decide) (by decide) hc
  have hspan : (Nat.toDigits 10 n).span Char.isDigit = (Nat.toDigits 10 n, []) := by
    rw [List.span_eq_takeWhile_dropWhile, List.takeWhile_eq_self_iff.mpr hdigits,
      List.dropWhile_eq_nil_iff.mpr hdigits]
  rw [readWhole, hspan]
  obtain rfl | hpos := Nat.eq_zero_or_pos n
  · rfl
  · obtain ⟨c, cs, hds, -⟩ := exists_toDigits n
    have hfirst : c ≠ '0' := by simpa [hds] using head?_toDigits hpos
    simp [hds, hfirst]

theorem readNumber_toDigits (negative : Bool) (n : Nat) :
    readNumber negative (Nat.toDigits 10 n) =
      (wholeNumber negative (Nat.toDigits 10 n), some []) := by
  rw [readNumber, readWhole_toDigits]
  rfl

/-! ## Quoted texts -/

theorem hexUnit?_hexDigit {n : Nat} (h : n < 0x20) :
    hexUnit? '0' '0' (Text.hexDigit (n / 16)) (Text.hexDigit n) = some n := by
  have table : ∀ m : Fin 0x20,
      hexUnit? '0' '0' (Text.hexDigit (m / 16)) (Text.hexDigit m) = some m.val := by decide
  exact table ⟨n, h⟩

theorem joinPieces_unit {n : Nat} (h : n < 0xD800) (ps : List Piece) :
    joinPieces (.unit n :: ps) = (Char.ofNat n :: ·) <$> joinPieces ps := by
  cases ps with
  | nil => simp [joinPieces, show ¬0xD800 ≤ n by omega]
  | cons p ps =>
    cases p with
    | char c => simp [joinPieces, show ¬0xD800 ≤ n by omega]
    | unit lo => simp [joinPieces, show ¬0xD800 ≤ n by omega, show ¬0xDC00 ≤ n by omega]

theorem readPieces_escapeChar (c : Char) {ps : List Piece}
    (h : readPieces cs = some (ps, rest)) :
    ∃ p, readPieces (Json.escapeChar c ++ cs) = some (p :: ps, rest) ∧
      joinPieces (p :: ps) = (c :: ·) <$> joinPieces ps := by
  by_cases hshort : c = '"' ∨ c = '\\' ∨ c = '\x08' ∨ c = '\x0c' ∨ c = '\n' ∨ c = '\r' ∨ c = '\t'
  · refine ⟨.char c, ?_, rfl⟩
    obtain rfl | rfl | rfl | rfl | rfl | rfl | rfl := hshort <;>
      simp [Json.escapeChar, readPieces, escape?, h]
  · simp only [not_or] at hshort
    by_cases hcontrol : c.toNat < 0x20
    · refine ⟨.unit c.toNat, ?_, ?_⟩
      · simp [Json.escapeChar, hshort, hcontrol, readPieces, hexUnit?_hexDigit hcontrol, h]
      · rw [joinPieces_unit (by omega), Char.ofNat_toNat]
    · refine ⟨.char c, ?_, rfl⟩
      simp [Json.escapeChar, hshort, hcontrol, readPieces, h]

theorem readPieces_flatMap_escapeChar (s rest : List Char) :
    ∃ ps, readPieces (s.flatMap Json.escapeChar ++ '"' :: rest) = some (ps, rest) ∧
      joinPieces ps = some s := by
  induction s with
  | nil => exact ⟨[], by simp [readPieces], rfl⟩
  | cons c s ih =>
    obtain ⟨ps, hread, hjoin⟩ := ih
    obtain ⟨p, hpiece, hchar⟩ := readPieces_escapeChar c hread
    exact ⟨p :: ps, by simpa using hpiece, by simp [hchar, hjoin]⟩

theorem readText_quote (s : String) (rest : List Char) :
    ∃ cs, (Json.quote s).toList ++ rest = '"' :: cs ∧ readText cs = some (some s, rest) := by
  obtain ⟨ps, hread, hjoin⟩ := readPieces_flatMap_escapeChar s.toList rest
  refine ⟨s.toList.flatMap Json.escapeChar ++ '"' :: rest, by simp [Json.quote], ?_⟩
  simp [readText, hread, hjoin]

/-! ## Blanks -/

theorem skipSpaces_append {gap : List Char} (h : gap.all isSpace = true) (cs : List Char) :
    skipSpaces (gap ++ cs) = skipSpaces cs :=
  List.dropWhile_append_of_pos (List.all_eq_true.mp h)

theorem skipSpaces_cons {c : Char} (h : isSpace c = false) (cs : List Char) :
    skipSpaces (c :: cs) = c :: cs := by
  simp [skipSpaces, h]

theorem toList_newline (level : Nat) :
    (Json.newline level).toList = '\n' :: List.replicate (2 * level) ' ' := by
  simp [Json.newline]

theorem all_isSpace_newline (level : Nat) : (Json.newline level).toList.all isSpace = true := by
  rw [toList_newline, List.all_cons, List.all_replicate]
  simp [isSpace]

theorem stops_newline (level : Nat) (rest : List Char) :
    Stops ((Json.newline level).toList ++ rest) := by
  rw [toList_newline]
  simp [Stops]

theorem stops_comma (rest : List Char) : Stops (',' :: rest) := by simp [Stops]

theorem stops_nil : Stops [] := by simp [Stops]

variable {gap : List Char} {fuel depth : Nat}

theorem readValue_gap (h : gap.all isSpace = true) (cs : List Char) :
    readValue fuel depth (gap ++ cs) = readValue fuel depth cs := by
  cases fuel with
  | zero => rfl
  | succ fuel => rw [readValue, readValue, skipSpaces_append h]

theorem readItems_gap (h : gap.all isSpace = true) (cs : List Char) :
    readItems fuel depth (gap ++ cs) = readItems fuel depth cs := by
  cases fuel with
  | zero => rfl
  | succ fuel => rw [readItems, readItems, readValue_gap h]

theorem readFields_gap (h : gap.all isSpace = true) (cs : List Char) :
    readFields fuel depth (gap ++ cs) = readFields fuel depth cs := by
  cases fuel with
  | zero => rfl
  | succ fuel => rw [readFields, readFields, skipSpaces_append h]

/-! ## Openings -/

theorem nested_of_lt (h : depth < maxDepth) (d : Doc) (rest : List Char) :
    nested (depth + 1) d (some rest) = (d, some rest) :=
  if_neg (Nat.not_lt.mpr h)

theorem readValue_list (hgap : gap.all isSpace = true) {c : Char} (hspace : isSpace c = false)
    (hclose : c ≠ ']') {ds : List Doc}
    (h : readItems fuel (depth + 1) (c :: cs) = (ds, some rest)) :
    readValue (fuel + 1) depth ('[' :: (gap ++ c :: cs)) =
      nested (depth + 1) (.list ds) (some rest) := by
  rw [readValue, skipSpaces_cons (show isSpace '[' = false from rfl)]
  simp only [skipSpaces_append hgap, skipSpaces_cons hspace]
  split
  · simp_all
  · rw [h]

theorem readValue_object (hgap : gap.all isSpace = true) {ds : List (Option String × Doc)}
    (h : readFields fuel (depth + 1) ('"' :: cs) = (ds, some rest)) :
    readValue (fuel + 1) depth ('\x7b' :: (gap ++ '"' :: cs)) =
      nested (depth + 1) (.object ds) (some rest) := by
  rw [readValue, skipSpaces_cons (show isSpace '\x7b' = false from rfl)]
  simp only [skipSpaces_append hgap, skipSpaces_cons (show isSpace '"' = false from rfl)]
  split
  · simp_all
  · rw [h]

/-! ## Words and numbers -/

theorem readValue_null (rest : List Char) :
    readValue (fuel + 1) depth ("null".toList ++ rest) = (.null, some rest) := rfl

theorem readValue_bool (b : Bool) (rest : List Char) :
    readValue (fuel + 1) depth ((Json.leafText (.bool b)).toList ++ rest) = (.bool b, some rest) := by
  cases b <;> rfl

def StartsNumber (cs : List Char) : Prop := ∃ c ∈ cs.head?, c = '-' ∨ c.isDigit = true

theorem isSpace_of_isDigit {c : Char} (h : c.isDigit = true) : isSpace c = false := by
  by_contra hspace
  simp only [isSpace, Bool.not_eq_false, Bool.or_eq_true, beq_iff_eq] at hspace
  obtain ((rfl | rfl) | rfl) | rfl := hspace <;> simp at h

theorem readValue_digit {c : Char} (h : c.isDigit = true) (cs : List Char) :
    readValue (fuel + 1) depth (c :: cs) = readNumber false (c :: cs) := by
  rw [readValue, skipSpaces_cons (isSpace_of_isDigit h)]
  split <;> simp_all

theorem StartsNumber.exists_cons (h : StartsNumber cs) :
    ∃ c cs', cs = c :: cs' ∧ isSpace c = false ∧ c ≠ ']' := by
  obtain ⟨c, hc, hstart⟩ := h
  cases cs with
  | nil => cases hc
  | cons c' cs =>
    obtain rfl : c' = c := by simpa using hc
    refine ⟨c', cs, rfl, ?_⟩
    obtain rfl | hdigit := hstart
    · exact ⟨rfl, by decide⟩
    · refine ⟨isSpace_of_isDigit hdigit, ?_⟩
      rintro rfl
      simp at hdigit

theorem readValue_number_append {d : Doc} (hstarts : StartsNumber cs)
    (hread : readValue (fuel + 1) depth cs = (d, some [])) (hstops : Stops rest)
    (fuel' depth' : Nat) : readValue (fuel' + 1) depth' (cs ++ rest) = (d, some rest) := by
  obtain ⟨c, hc, hstart⟩ := hstarts
  cases cs with
  | nil => cases hc
  | cons c' cs =>
    obtain rfl : c' = c := by simpa using hc
    obtain rfl | hdigit := hstart
    · exact readNumber_append hstops hread
    · rw [readValue_digit hdigit] at hread
      exact (readValue_digit hdigit _).trans (readNumber_append hstops hread)

end Doc

theorem Decimal.scaled?_negSucc {n k : Nat} (h : k + 1 ≤ Scaled.maxPower) :
    Decimal.scaled? ⟨n, .negSucc k⟩ = some (Float.ofNat n / Scaled.powerOfTen (k + 1)) := by
  simp only [Decimal.scaled?]
  rw [Scaled.divide, if_pos h]

namespace Layout

theorem startsNumber_zero (cs : List Char) : Doc.StartsNumber ('0' :: cs) :=
  ⟨'0', rfl, .inr rfl⟩

theorem startsNumber_placePoint (wholeFraction : Bool) (n : Nat) (point : Int) :
    Doc.StartsNumber (placePoint wholeFraction (Nat.toDigits 10 n) point) := by
  obtain ⟨c, cs, hds, hdigit⟩ := Doc.exists_toDigits n
  unfold placePoint
  split
  · exact startsNumber_zero _
  · split
    · exact ⟨c, by simp [hds], .inr hdigit⟩
    · obtain ⟨k, hk⟩ : ∃ k, point.toNat = k + 1 := ⟨point.toNat - 1, by omega⟩
      exact ⟨c, by simp [hds, hk], .inr hdigit⟩

theorem startsNumber_withExponent (n : Nat) (point : Int) :
    Doc.StartsNumber (withExponent (Nat.toDigits 10 n) point) := by
  obtain ⟨c, cs, hds, hdigit⟩ := Doc.exists_toDigits n
  refine ⟨c, ?_, .inr hdigit⟩
  unfold withExponent
  rw [hds]
  cases cs <;> rfl

theorem startsNumber_text (l : Layout) (x : Float) : Doc.StartsNumber (l.text x).toList := by
  rw [text, String.toList_ofList]
  split
  · exact ⟨'-', rfl, .inl rfl⟩
  · rw [List.nil_append, magnitude]
    split
    · split <;> exact startsNumber_zero _
    · dsimp only
      split
      · exact startsNumber_placePoint ..
      · exact startsNumber_withExponent ..

end Layout

namespace Json

theorem startsNumber_int (n : Int) : Doc.StartsNumber (toString n).toList := by
  cases n with
  | ofNat n =>
    obtain ⟨c, cs, hds, hdigit⟩ := Doc.exists_toDigits n
    refine ⟨c, ?_, .inr hdigit⟩
    show c ∈ (Nat.repr n).toList.head?
    simp [Nat.toList_repr, hds]
  | negSucc n => exact ⟨'-', by simp [Int.repr], .inl rfl⟩

/-- The text of the value is read as the value. -/
def ReadsBack (j : Json) : Prop := Doc.read j.pretty = (Doc.ofJson j, some [])

theorem readValue_int {n : Int} (h : (int n).ReadsBack) {rest : List Char} (hstops : Doc.Stops rest)
    (fuel depth : Nat) :
    Doc.readValue (fuel + 1) depth ((leafText (.int n)).toList ++ rest) = (.int n, some rest) :=
  Doc.readValue_number_append (startsNumber_int n) h hstops fuel depth

theorem readValue_float {x : Float} (h : (float x).ReadsBack) {rest : List Char}
    (hstops : Doc.Stops rest) (fuel depth : Nat) :
    Doc.readValue (fuel + 1) depth ((leafText (.float x)).toList ++ rest) =
      (.float x, some rest) := by
  have hread : Doc.read (leafText (.float x)) = (.float x, some []) := h
  by_cases hfinite : x.isFinite = true
  · have htext : leafText (.float x) = Layout.wire.text x := by simp [leafText, hfinite]
    rw [htext] at hread ⊢
    exact Doc.readValue_number_append (Layout.startsNumber_text _ x) hread hstops fuel depth
  · have htext : leafText (.float x) = "null" := by simp [leafText, hfinite]
    have hnull : Doc.read "null" = (.null, some []) := rfl
    simp [htext, hnull] at hread

theorem readValue_text (s : String) {fuel depth : Nat} (rest : List Char) :
    Doc.readValue (fuel + 1) depth ((leafText (.text s)).toList ++ rest) = (.text s, some rest) := by
  obtain ⟨cs, hquote, hread⟩ := Doc.readText_quote s rest
  show Doc.readValue (fuel + 1) depth ((quote s).toList ++ rest) = _
  rw [hquote, Doc.readValue, Doc.skipSpaces_cons (show Doc.isSpace '"' = false from rfl)]
  simp only [hread]

theorem readsBack_int {n : Int} (h : -0x8000000000000000 ≤ n ∧ n < 0x10000000000000000) :
    (int n).ReadsBack := by
  cases n with
  | ofNat n =>
    obtain ⟨c, cs, hds, hdigit⟩ := Doc.exists_toDigits n
    show Doc.readValue (_ + 1) 0 (Nat.repr n).toList = _
    rw [Nat.toList_repr, hds, Doc.readValue_digit hdigit, ← hds, Doc.readNumber_toDigits]
    have hvalue : Text.natOfDigits (Nat.toDigits 10 n) = n := Nat.ofDigitChars_ten_toDigits
    have hbelow : (n : Int) < 0x10000000000000000 := h.2
    have hfits : decide (n < 1 <<< 64) = true := decide_eq_true (show n < 0x10000000000000000 by omega)
    simp only [Doc.wholeNumber, hvalue, hfits, Bool.false_eq_true, if_false, if_true]
    rfl
  | negSucc n =>
    show Doc.readValue (_ + 1) 0 ("-" ++ Nat.repr (n + 1)).toList = _
    rw [String.toList_append, Nat.toList_repr]
    show Doc.readNumber true (Nat.toDigits 10 (n + 1)) = _
    rw [Doc.readNumber_toDigits]
    have hvalue : Text.natOfDigits (Nat.toDigits 10 (n + 1)) = n + 1 := Nat.ofDigitChars_ten_toDigits
    have hfits : (decide (0 < n + 1) && decide (n + 1 ≤ 1 <<< 63)) = true := by
      have hbelow := h.1
      have hword : n + 1 ≤ 0x8000000000000000 := by omega
      exact (Bool.and_eq_true _ _).mpr ⟨decide_eq_true (Nat.succ_pos n), decide_eq_true hword⟩
    simp only [Doc.wholeNumber, hvalue, hfits, if_true]
    rfl

theorem readsBack_float {x : Float} {s : String} {d : Decimal} (htext : (float x).pretty = s)
    (hread : Doc.read s = (.ofDecimal false d, some [])) (hvalue : d.scaled? = some x) :
    (float x).ReadsBack := by
  rw [ReadsBack, htext, hread, Doc.ofDecimal, hvalue]
  rfl

/-- A value that is nested no deeper than so many levels and whose numbers read back. -/
inductive IsLegible : Nat → Json → Prop
  | null {levels : Nat} : IsLegible levels .null
  | bool {levels : Nat} (b : Bool) : IsLegible levels (.bool b)
  | int {levels : Nat} {n : Int} (h : (int n).ReadsBack) : IsLegible levels (.int n)
  | float {levels : Nat} {x : Float} (h : (float x).ReadsBack) : IsLegible levels (.float x)
  | text {levels : Nat} (s : String) : IsLegible levels (.text s)
  | list {levels : Nat} {items : List Json} (h : ∀ item ∈ items, IsLegible levels item) :
    IsLegible (levels + 1) (.list items)
  | object {levels : Nat} {fields : List (String × Json)}
    (h : ∀ field ∈ fields, IsLegible levels field.2) : IsLegible (levels + 1) (.object fields)

section

variable {levels : Nat}

@[simp] theorem isLegible_text (s : String) : (text s).IsLegible levels := .text s

@[simp] theorem isLegible_bool (b : Bool) : (bool b).IsLegible levels := .bool b

@[simp] theorem isLegible_int {n : Int} : (int n).IsLegible levels ↔ (int n).ReadsBack :=
  ⟨fun | .int h => h, .int⟩

@[simp] theorem isLegible_float {x : Float} : (float x).IsLegible levels ↔ (float x).ReadsBack :=
  ⟨fun | .float h => h, .float⟩

@[simp] theorem isLegible_list {items : List Json} :
    (list items).IsLegible (levels + 1) ↔ ∀ item ∈ items, item.IsLegible levels :=
  ⟨fun | .list h => h, .list⟩

@[simp] theorem isLegible_object {fields : List (String × Json)} :
    (object fields).IsLegible (levels + 1) ↔ ∀ field ∈ fields, field.2.IsLegible levels :=
  ⟨fun | .object h => h, .object⟩

end

/-- A value is read wherever its text stands, if the fuel covers its text. -/
def ReadsAt (j : Json) (level depth : Nat) : Prop :=
  ∀ (fuel : Nat) (rest : List Char), 2 * (prettyAt level j).toList.length < fuel → Doc.Stops rest →
    Doc.readValue fuel depth ((prettyAt level j).toList ++ rest) = (Doc.ofJson j, some rest)

theorem readsAt_of_succ {j : Json} {level depth : Nat}
    (h : ∀ (fuel : Nat) (rest : List Char), Doc.Stops rest →
      Doc.readValue (fuel + 1) depth ((prettyAt level j).toList ++ rest) =
        (Doc.ofJson j, some rest)) : j.ReadsAt level depth := by
  rintro (_ | fuel) rest hfuel hstops
  · omega
  · exact h fuel rest hstops

theorem prettyItems_eq (level : Nat) (items : List Json) :
    prettyItems level items = items.map (prettyAt level) := by
  induction items with
  | nil => rfl
  | cons j items ih => rw [prettyItems, ih, List.map_cons]

theorem prettyFields_eq (level : Nat) (fields : List (String × Json)) :
    prettyFields level fields =
      fields.map fun field => quote field.1 ++ ": " ++ prettyAt level field.2 := by
  induction fields with
  | nil => rfl
  | cons field fields ih => rw [prettyFields, ih, List.map_cons]

/-- What stands between lines at a level. -/
def comma (level : Nat) : List Char := ',' :: (newline level).toList

/-- The last line of a list or object and what follows it. -/
def ending (closer : Char) (level : Nat) (rest : List Char) : List Char :=
  (newline level).toList ++ closer :: rest

theorem skipSpaces_ending {closer : Char} (h : Doc.isSpace closer = false) (level : Nat)
    (rest : List Char) : Doc.skipSpaces (ending closer level rest) = closer :: rest := by
  rw [ending, Doc.skipSpaces_append (Doc.all_isSpace_newline level), Doc.skipSpaces_cons h]

def itemLines (level : Nat) (items : List Json) : List Char :=
  (comma level).intercalate (items.map fun j => (prettyAt level j).toList)

theorem itemLines_cons_cons (level : Nat) (j k : Json) (items : List Json) :
    itemLines level (j :: k :: items) =
      (prettyAt level j).toList ++ comma level ++ itemLines level (k :: items) := by
  simp only [itemLines, List.map_cons, List.intercalate_cons_cons]

theorem readItems_lines {level depth : Nat} {items : List Json} (hne : items ≠ [])
    (hitems : ∀ item ∈ items, item.ReadsAt (level + 1) depth) {fuel : Nat} (rest : List Char)
    (hfuel : 2 * (itemLines (level + 1) items).length + 1 < fuel) :
    Doc.readItems fuel depth (itemLines (level + 1) items ++ ending ']' level rest) =
      (Doc.ofItems items, some rest) := by
  induction items generalizing fuel with
  | nil => exact absurd rfl hne
  | cons item items ih =>
    have hitem := hitems item List.mem_cons_self
    obtain ⟨fuel, rfl⟩ : ∃ f, fuel = f + 1 := ⟨fuel - 1, by omega⟩
    cases items with
    | nil =>
      have hlines : itemLines (level + 1) [item] = (prettyAt (level + 1) item).toList := by
        simp [itemLines]
      rw [hlines] at hfuel ⊢
      have hread := hitem fuel (ending ']' level rest) (by omega) (Doc.stops_newline level _)
      rw [Doc.readItems, hread]
      simp only [skipSpaces_ending (show Doc.isSpace ']' = false from rfl)]
      rfl
    | cons next items =>
      rw [itemLines_cons_cons] at hfuel ⊢
      simp only [List.length_append, comma, List.length_cons] at hfuel
      have hrest := ih (by simp) (fun j hj => hitems j (List.mem_cons_of_mem _ hj))
        (show 2 * (itemLines (level + 1) (next :: items)).length + 1 < fuel by omega)
      have hread := hitem fuel
        (comma (level + 1) ++ (itemLines (level + 1) (next :: items) ++ ending ']' level rest))
        (by omega) (Doc.stops_comma _)
      simp only [List.append_assoc]
      rw [Doc.readItems, hread, comma, List.cons_append]
      simp only [Doc.skipSpaces_cons (show Doc.isSpace ',' = false from rfl),
        Doc.readItems_gap (Doc.all_isSpace_newline (level + 1)), hrest]
      rfl

def fieldLine (level : Nat) (field : String × Json) : List Char :=
  (quote field.1 ++ ": " ++ prettyAt level field.2).toList

def fieldLines (level : Nat) (fields : List (String × Json)) : List Char :=
  (comma level).intercalate (fields.map (fieldLine level))

theorem fieldLines_cons_cons (level : Nat) (f g : String × Json) (fields : List (String × Json)) :
    fieldLines level (f :: g :: fields) =
      fieldLine level f ++ comma level ++ fieldLines level (g :: fields) := by
  simp only [fieldLines, List.map_cons, List.intercalate_cons_cons]

theorem readFields_fieldLine {level depth fuel : Nat} {field : String × Json}
    (hfield : field.2.ReadsAt level depth) (hfuel : 2 * (fieldLine level field).length < fuel)
    {rest : List Char} (hstops : Doc.Stops rest) :
    (∀ left, Doc.skipSpaces rest = '\x7d' :: left →
      Doc.readFields (fuel + 1) depth (fieldLine level field ++ rest) =
        ([(some field.1, Doc.ofJson field.2)], some left)) ∧
    ∀ left fields after, Doc.skipSpaces rest = ',' :: left →
      Doc.readFields fuel depth left = (fields, after) →
      Doc.readFields (fuel + 1) depth (fieldLine level field ++ rest) =
        ((some field.1, Doc.ofJson field.2) :: fields, after) := by
  obtain ⟨key, j⟩ := field
  simp only [fieldLine, String.toList_append, List.length_append] at hfuel ⊢
  -- the key is read up to the colon, and the blank after the colon is skipped before the value
  obtain ⟨cs, hquote, hkey⟩ :=
    Doc.readText_quote key (": ".toList ++ ((prettyAt level j).toList ++ rest))
  have hcolon : Doc.skipSpaces (": ".toList ++ ((prettyAt level j).toList ++ rest)) =
      ':' :: ([' '] ++ ((prettyAt level j).toList ++ rest)) := rfl
  have hread : Doc.readValue fuel depth ([' '] ++ ((prettyAt level j).toList ++ rest)) =
      (Doc.ofJson j, some rest) := by
    rw [Doc.readValue_gap (show [' '].all Doc.isSpace = true from rfl)]
    exact hfield fuel rest (show 2 * (prettyAt level j).toList.length < fuel by omega) hstops
  rw [List.append_assoc, List.append_assoc, hquote, Doc.readFields,
    Doc.skipSpaces_cons (show Doc.isSpace '"' = false from rfl)]
  simp only [hkey, hcolon, hread]
  constructor
  · intro left hend
    simp only [hend]
  · intro left fields after hnext hrest
    simp only [hnext, hrest]

theorem readFields_lines {level depth : Nat} {fields : List (String × Json)} (hne : fields ≠ [])
    (hfields : ∀ field ∈ fields, field.2.ReadsAt (level + 1) depth) {fuel : Nat} (rest : List Char)
    (hfuel : 2 * (fieldLines (level + 1) fields).length + 1 < fuel) :
    Doc.readFields fuel depth (fieldLines (level + 1) fields ++ ending '\x7d' level rest) =
      (Doc.ofFields fields, some rest) := by
  induction fields generalizing fuel with
  | nil => exact absurd rfl hne
  | cons field fields ih =>
    have hfield := hfields field List.mem_cons_self
    obtain ⟨fuel, rfl⟩ : ∃ f, fuel = f + 1 := ⟨fuel - 1, by omega⟩
    cases fields with
    | nil =>
      have hline : fieldLines (level + 1) [field] = fieldLine (level + 1) field := by
        simp [fieldLines]
      rw [hline] at hfuel ⊢
      have hstops : Doc.Stops (ending '\x7d' level rest) := Doc.stops_newline level _
      exact (readFields_fieldLine hfield (by omega) hstops).1 rest (skipSpaces_ending rfl level rest)
    | cons next fields =>
      rw [fieldLines_cons_cons] at hfuel ⊢
      simp only [List.length_append, comma, List.length_cons] at hfuel
      have hrest := ih (by simp) (fun f hf => hfields f (List.mem_cons_of_mem _ hf))
        (show 2 * (fieldLines (level + 1) (next :: fields)).length + 1 < fuel by omega)
      rw [List.append_assoc, List.append_assoc, comma, List.cons_append]
      refine (readFields_fieldLine hfield (by omega) (Doc.stops_comma _)).2 _ _ _
        (Doc.skipSpaces_cons rfl _) ?_
      rw [Doc.readFields_gap (Doc.all_isSpace_newline (level + 1)), hrest]

theorem toList_bracketed {lines : List String} (h : lines ≠ []) (opener closer : String)
    (level : Nat) : (bracketed opener closer level lines).toList =
      opener.toList ++ ((newline (level + 1)).toList ++
        ((comma (level + 1)).intercalate (lines.map String.toList) ++
          ((newline level).toList ++ closer.toList))) := by
  have hlines : lines.isEmpty = false := by simpa using h
  simp [bracketed, hlines, comma, String.toList_intercalate]

theorem exists_bracketed (opener closer : String) (level : Nat) (lines : List String) :
    ∃ cs, (bracketed opener closer level lines).toList = opener.toList ++ cs := by
  by_cases h : lines = []
  · exact ⟨closer.toList, by simp [bracketed, h]⟩
  · exact ⟨_, toList_bracketed h opener closer level⟩

theorem exists_prettyAt (level : Nat) (j : Json) :
    ∃ c cs, (prettyAt level j).toList = c :: cs ∧ Doc.isSpace c = false ∧ c ≠ ']' := by
  cases j with
  | null =>
    show ∃ c cs, "null".toList = c :: cs ∧ _
    exact ⟨'n', ['u', 'l', 'l'], rfl, rfl, by decide⟩
  | bool b =>
    cases b
    · show ∃ c cs, "false".toList = c :: cs ∧ _
      exact ⟨'f', ['a', 'l', 's', 'e'], rfl, rfl, by decide⟩
    · show ∃ c cs, "true".toList = c :: cs ∧ _
      exact ⟨'t', ['r', 'u', 'e'], rfl, rfl, by decide⟩
  | int n => exact (startsNumber_int n).exists_cons
  | float x =>
    by_cases hfinite : x.isFinite = true
    · have htext : prettyAt level (.float x) = Layout.wire.text x := by
        simp [prettyAt, leafText, hfinite]
      rw [htext]
      exact (Layout.startsNumber_text _ x).exists_cons
    · have htext : prettyAt level (.float x) = "null" := by simp [prettyAt, leafText, hfinite]
      rw [htext]
      exact ⟨'n', ['u', 'l', 'l'], rfl, rfl, by decide⟩
  | text s => exact ⟨'"', _, String.toList_ofList, rfl, by decide⟩
  | list items =>
    obtain ⟨cs, hcs⟩ := exists_bracketed "[" "]" level (prettyItems (level + 1) items)
    exact ⟨'[', cs, by rw [prettyAt, hcs]; rfl, rfl, by decide⟩
  | object fields =>
    obtain ⟨cs, hcs⟩ := exists_bracketed "\x7b" "\x7d" level (prettyFields (level + 1) fields)
    exact ⟨'\x7b', cs, by rw [prettyAt, hcs]; rfl, rfl, by decide⟩

theorem exists_itemLines (level : Nat) {items : List Json} (h : items ≠ []) :
    ∃ c cs, itemLines level items = c :: cs ∧ Doc.isSpace c = false ∧ c ≠ ']' := by
  obtain ⟨item, items, rfl⟩ := List.exists_cons_of_ne_nil h
  obtain ⟨c, cs, htext, hc⟩ := exists_prettyAt level item
  cases items with
  | nil => exact ⟨c, cs, by simpa [itemLines] using htext, hc⟩
  | cons next items => exact ⟨c, _, by rw [itemLines_cons_cons, htext]; rfl, hc⟩

theorem exists_fieldLines (level : Nat) {fields : List (String × Json)} (h : fields ≠ []) :
    ∃ cs, fieldLines level fields = '"' :: cs := by
  obtain ⟨field, fields, rfl⟩ := List.exists_cons_of_ne_nil h
  have hline : ∃ cs, fieldLine level field = '"' :: cs :=
    ⟨_, by simp only [fieldLine, quote, String.toList_append, String.toList_ofList]; rfl⟩
  obtain ⟨cs, hcs⟩ := hline
  cases fields with
  | nil => exact ⟨cs, by simpa [fieldLines] using hcs⟩
  | cons next fields => exact ⟨_, by rw [fieldLines_cons_cons, hcs]; rfl⟩

theorem readsAt_list {level depth : Nat} {items : List Json} (hdepth : depth < Doc.maxDepth)
    (h : ∀ item ∈ items, item.ReadsAt (level + 1) (depth + 1)) :
    (list items).ReadsAt level depth := by
  rintro (_ | fuel) rest hfuel hstops
  · omega
  by_cases hempty : items = []
  · have htext : (prettyAt level (list items)).toList = ['[', ']'] := by
      simp [hempty, prettyAt, prettyItems, bracketed]
    rw [htext, hempty]
    exact Doc.nested_of_lt hdepth _ _
  · have htext : (prettyAt level (list items)).toList = '[' :: ((newline (level + 1)).toList ++
        (itemLines (level + 1) items ++ ((newline level).toList ++ [']']))) := by
      rw [prettyAt, prettyItems_eq, toList_bracketed (by simpa using hempty), List.map_map]
      rfl
    rw [htext] at hfuel ⊢
    simp only [List.length_cons, List.length_append] at hfuel
    have hread := readItems_lines hempty h rest
      (show 2 * (itemLines (level + 1) items).length + 1 < fuel by omega)
    obtain ⟨c, cs, hlines, hspace, hclose⟩ := exists_itemLines (level + 1) hempty
    simp only [hlines, ending, List.cons_append, List.append_assoc, List.nil_append] at hread ⊢
    rw [Doc.readValue_list (Doc.all_isSpace_newline (level + 1)) hspace hclose hread]
    exact Doc.nested_of_lt hdepth _ _

theorem readsAt_object {level depth : Nat} {fields : List (String × Json)}
    (hdepth : depth < Doc.maxDepth)
    (h : ∀ field ∈ fields, field.2.ReadsAt (level + 1) (depth + 1)) :
    (object fields).ReadsAt level depth := by
  rintro (_ | fuel) rest hfuel hstops
  · omega
  by_cases hempty : fields = []
  · have htext : (prettyAt level (object fields)).toList = ['\x7b', '\x7d'] := by
      simp [hempty, prettyAt, prettyFields, bracketed]
    rw [htext, hempty]
    exact Doc.nested_of_lt hdepth _ _
  · have htext : (prettyAt level (object fields)).toList = '\x7b' ::
        ((newline (level + 1)).toList ++ (fieldLines (level + 1) fields ++
          ((newline level).toList ++ ['\x7d']))) := by
      rw [prettyAt, prettyFields_eq, toList_bracketed (by simpa using hempty), List.map_map]
      rfl
    rw [htext] at hfuel ⊢
    simp only [List.length_cons, List.length_append] at hfuel
    have hread := readFields_lines hempty h rest
      (show 2 * (fieldLines (level + 1) fields).length + 1 < fuel by omega)
    obtain ⟨cs, hlines⟩ := exists_fieldLines (level + 1) hempty
    simp only [hlines, ending, List.cons_append, List.append_assoc, List.nil_append] at hread ⊢
    rw [Doc.readValue_object (Doc.all_isSpace_newline (level + 1)) hread]
    exact Doc.nested_of_lt hdepth _ _

theorem IsLegible.readsAt {levels : Nat} {j : Json} (h : j.IsLegible levels) (level depth : Nat)
    (hdepth : depth + levels ≤ Doc.maxDepth) : j.ReadsAt level depth := by
  induction h generalizing level depth with
  | null => exact readsAt_of_succ fun _ _ _ => Doc.readValue_null _
  | bool b => exact readsAt_of_succ fun _ _ _ => Doc.readValue_bool b _
  | int h => exact readsAt_of_succ fun fuel _ hstops => readValue_int h hstops fuel depth
  | float h => exact readsAt_of_succ fun fuel _ hstops => readValue_float h hstops fuel depth
  | text s => exact readsAt_of_succ fun _ _ _ => readValue_text s _
  | list h ih => exact readsAt_list (by omega) fun item hitem => ih item hitem _ _ (by omega)
  | object h ih => exact readsAt_object (by omega) fun f hf => ih f hf _ _ (by omega)

/-- **What is written is read.** A value that is not nested too deeply reads back if its numbers
do. -/
theorem IsLegible.readsBack {j : Json} (h : j.IsLegible Doc.maxDepth) : j.ReadsBack := by
  have hread := h.readsAt 0 0 (by omega) (2 * j.pretty.length + 2) [] ?_ Doc.stops_nil
  · rwa [List.append_nil] at hread
  · show 2 * (pretty j).toList.length < 2 * j.pretty.length + 2
    rw [String.length_toList]
    omega

end Json

end ChartFeed
