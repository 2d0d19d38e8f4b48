import ChartFeed.Text.Blank

/-!
# Trimmed texts

* `isTrimmed_trim` : trimming leaves no blank at either end.
* `trimChars_surrounded` : trimming takes away just the blanks around a text.
* `trim_eq_self_iff` : trimming leaves a text alone exactly when no blank stands at either end.
-/

namespace ChartFeed.Text

theorem isBlank_of_head?_dropBlanks {cs : List Char} {c : Char} (h : c ∈ (dropBlanks cs).head?) :
    isBlank c = false := by
  have := List.head?_dropWhile_not isBlank cs
  rw [show cs.dropWhile isBlank = dropBlanks cs from rfl, Option.mem_def.mp h] at this
  exact this

theorem dropBlanksEnd_prefix (cs : List Char) : dropBlanksEnd cs <+: cs := by
  have := List.reverse_prefix.mpr (List.dropWhile_suffix isBlank (l := cs.reverse))
  rwa [List.reverse_reverse] at this

/-- **Trimming leaves no blank at either end.** -/
theorem isTrimmed_trim (s : String) : IsTrimmed (trim s) := by
  unfold IsTrimmed trim
  rw [String.toList_ofList]
  refine ⟨fun c hc => ?_, fun c hc => ?_⟩
  · obtain ⟨rest, hrest⟩ := dropBlanksEnd_prefix (dropBlanks s.toList)
    have hhead : c ∈ (dropBlanks s.toList).head? := by
      rw [← hrest]
      unfold trimChars at hc
      cases h : dropBlanksEnd (dropBlanks s.toList) with
      | nil => simp [h] at hc
      | cons d ds => simpa [h] using hc
    exact isBlank_of_head?_dropBlanks hhead
  · unfold trimChars dropBlanksEnd at hc
    rw [List.getLast?_reverse] at hc
    exact isBlank_of_head?_dropBlanks hc

theorem trim_ne_of_not_isAllBlank {s : String} (h : isAllBlank s = false) : trim s ≠ "" := by
  intro hblank
  rw [isAllBlank, hblank] at h
  cases h

theorem dropBlanks_of_head {cs : List Char} (h : ∀ c ∈ cs.head?, isBlank c = false) :
    dropBlanks cs = cs := by
  cases cs with
  | nil => rfl
  | cons c cs =>
    have hc : isBlank c = false := h c rfl
    simp [dropBlanks, hc]

theorem dropBlanks_append {blanks : List Char} (h : ∀ c ∈ blanks, isBlank c = true)
    (cs : List Char) : dropBlanks (blanks ++ cs) = dropBlanks cs :=
  List.dropWhile_append_of_pos h

theorem trimChars_surrounded {before cs after : List Char} (hbefore : ∀ c ∈ before, isBlank c = true)
    (hafter : ∀ c ∈ after, isBlank c = true) (hhead : ∀ c ∈ cs.head?, isBlank c = false)
    (hlast : ∀ c ∈ cs.getLast?, isBlank c = false) : trimChars (before ++ (cs ++ after)) = cs := by
  have hend : ∀ c ∈ after.reverse, isBlank c = true := fun c hc => hafter c (List.mem_reverse.mp hc)
  unfold trimChars
  rw [dropBlanks_append hbefore]
  cases cs with
  | nil =>
    have hnone := dropBlanks_append hafter []
    rw [List.append_nil] at hnone
    rw [List.nil_append, hnone]
    rfl
  | cons c cs =>
    have hstart : dropBlanks (c :: cs ++ after) = c :: cs ++ after := dropBlanks_of_head hhead
    rw [hstart, dropBlanksEnd, List.reverse_append, dropBlanks_append hend, dropBlanks_of_head,
      List.reverse_reverse]
    rwa [List.head?_reverse]

/-- There is a last character, and it is no blank. -/
def EndsSolid (cs : List Char) : Prop := ∃ c, cs.getLast? = some c ∧ isBlank c = false

namespace EndsSolid

variable {cs ds : List Char}

theorem getLast? (h : EndsSolid cs) : ∀ c ∈ cs.getLast?, isBlank c = false := by
  obtain ⟨c, hlast, hc⟩ := h
  intro d hd
  rw [hlast] at hd
  cases hd
  exact hc

theorem append (h : EndsSolid ds) : EndsSolid (cs ++ ds) := by
  obtain ⟨c, hlast, hc⟩ := h
  exact ⟨c, by rw [List.getLast?_append, hlast, Option.some_or], hc⟩

theorem cons {c : Char} (h : EndsSolid cs) : EndsSolid ([c] ++ cs) := h.append

end EndsSolid

theorem trim_eq_self_iff {s : String} : trim s = s ↔ IsTrimmed s := by
  constructor
  · intro h
    rw [← h]
    exact isTrimmed_trim s
  · rintro ⟨hhead, hlast⟩
    have hnone : ∀ c ∈ ([] : List Char), isBlank c = true := List.forall_mem_nil _
    have hkept := trimChars_surrounded hnone hnone hhead hlast
    rw [List.append_nil, List.nil_append] at hkept
    rw [trim, hkept, String.ofList_toList]

end ChartFeed.Text
