/-! Blank characters: the code points with the Unicode property White_Space. -/

namespace Countersign.Text

def isBlank (c : Char) : Bool :=
  let n := c.toNat
  (9 ≤ n && n ≤ 13) || n == 0x20 || n == 0x85 || n == 0xA0 || n == 0x1680 ||
    (0x2000 ≤ n && n ≤ 0x200A) || n == 0x2028 || n == 0x2029 || n == 0x202F || n == 0x205F ||
    n == 0x3000

def trim (cs : List Char) : List Char :=
  ((cs.dropWhile isBlank).reverse.dropWhile isBlank).reverse

theorem dropWhile_isBlank {cs : List Char} (h : ∀ c ∈ cs.head?, isBlank c = false) :
    cs.dropWhile isBlank = cs := by
  cases cs with
  | nil => rfl
  | cons c cs => simp [h c (by simp)]

theorem trim_eq_nil_iff {cs : List Char} : trim cs = [] ↔ ∀ c ∈ cs, isBlank c = true := by
  have hnil : ∀ l : List Char, l.dropWhile isBlank = [] ↔ ∀ c ∈ l, isBlank c = true := by
    intro l
    induction l with
    | nil => simp
    | cons c l ih =>
      rw [List.dropWhile_cons]
      split
      · next hc => simp [hc, ih]
      · next hc => simp [hc]
  rw [trim, List.reverse_eq_nil_iff, hnil]
  simp only [List.mem_reverse]
  constructor
  · intro h
    -- The first character that is not blank would be dropped from the end as well.
    refine (hnil cs).1 ?_
    cases hd : cs.dropWhile isBlank with
    | nil => rfl
    | cons c l =>
      have hc : ¬isBlank c = true := by
        have := List.head?_dropWhile_not isBlank cs
        rw [hd] at this
        simpa using this
      exact absurd (h c (by rw [hd]; exact List.mem_cons_self)) hc
  · intro h c hc
    exact h c ((List.dropWhile_sublist _).subset hc)

/-- What is left of a text with blanks around it. -/
theorem trim_append {before cs after : List Char} (hbefore : ∀ c ∈ before, isBlank c = true)
    (hafter : ∀ c ∈ after, isBlank c = true) (hfirst : ∀ c ∈ cs.head?, isBlank c = false)
    (hlast : ∀ c ∈ cs.getLast?, isBlank c = false) : trim (before ++ cs ++ after) = cs := by
  cases cs with
  | nil =>
    refine trim_eq_nil_iff.2 fun c hc => ?_
    rw [List.append_nil] at hc
    exact (List.mem_append.1 hc).elim (hbefore c) (hafter c)
  | cons c cs =>
    have hstart : ∀ d ∈ ((c :: cs) ++ after).head?, isBlank d = false := hfirst
    have hend : ∀ d ∈ (c :: cs).reverse.head?, isBlank d = false := by
      rwa [List.head?_reverse]
    have hafter' : ∀ d ∈ after.reverse, isBlank d = true :=
      fun d hd => hafter d (List.mem_reverse.1 hd)
    rw [trim, List.append_assoc, List.dropWhile_append_of_pos hbefore, dropWhile_isBlank hstart,
      List.reverse_append, List.dropWhile_append_of_pos hafter', dropWhile_isBlank hend,
      List.reverse_reverse]

/-- `ts` is `cs` without the blanks at its ends. -/
structure Trims (cs ts : List Char) : Prop where
  split : ∃ before after, cs = before ++ ts ++ after ∧
    (∀ c ∈ before, isBlank c = true) ∧ ∀ c ∈ after, isBlank c = true
  first : ∀ c ∈ ts.head?, isBlank c = false
  last : ∀ c ∈ ts.getLast?, isBlank c = false

theorem trims_trim (cs : List Char) : Trims cs (trim cs) := by
  have hblank : ∀ l : List Char, ∀ c ∈ l.takeWhile isBlank, isBlank c = true :=
    fun l => List.all_eq_true.1 List.all_takeWhile
  have hkept : ∀ l : List Char, ∀ c ∈ (l.dropWhile isBlank).head?, isBlank c = false := by
    intro l c hc
    have := List.head?_dropWhile_not isBlank l
    rw [Option.mem_def.1 hc] at this
    simpa using this
  obtain ⟨after, hrest, hafter⟩ : ∃ after, cs.dropWhile isBlank = trim cs ++ after ∧
      ∀ c ∈ after, isBlank c = true := by
    refine ⟨((cs.dropWhile isBlank).reverse.takeWhile isBlank).reverse, ?_, fun c hc => ?_⟩
    · rw [trim, ← List.reverse_append, List.takeWhile_append_dropWhile, List.reverse_reverse]
    · exact hblank _ c (List.mem_reverse.1 hc)
  refine ⟨⟨cs.takeWhile isBlank, after, ?_, hblank cs, hafter⟩, fun c hc => ?_, ?_⟩
  · rw [List.append_assoc, ← hrest, List.takeWhile_append_dropWhile]
  · refine hkept cs c ?_
    rw [hrest, List.head?_append, Option.mem_def.1 hc]
    rfl
  · rw [trim, List.getLast?_reverse]
    exact hkept _

theorem trims_iff {cs ts : List Char} : Trims cs ts ↔ trim cs = ts := by
  constructor
  · rintro ⟨⟨before, after, rfl, hbefore, hafter⟩, hfirst, hlast⟩
    exact trim_append hbefore hafter hfirst hlast
  · rintro rfl
    exact trims_trim cs

end Countersign.Text
