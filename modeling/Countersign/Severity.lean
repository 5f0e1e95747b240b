/-! How grave the outcome of a rule is. -/

namespace Countersign

inductive Severity where
  /-- The rule could not be evaluated. -/
  | unknown
  | safe
  | warning
  | danger
  | forbidden
deriving DecidableEq

namespace Severity

def all : List Severity := [unknown, safe, warning, danger, forbidden]

/-- The severities of thresholds, gravest first. -/
def evaluationOrder : List Severity := [forbidden, danger, warning, safe]

/-- The place in the order of threshold tables. -/
def index : Severity → Nat
  | unknown => 0
  | safe => 1
  | warning => 2
  | danger => 3
  | forbidden => 4

/-- How strongly an outcome blocks. One that could not be evaluated has no rank. -/
def rank? : Severity → Option Nat
  | unknown => none
  | safe => some 0
  | warning => some 1
  | danger => some 2
  | forbidden => some 3

/-- The signer has to deal with the outcome before signing. -/
def needsProcessing : Severity → Bool
  | unknown | safe => false
  | warning | danger | forbidden => true

def text : Severity → String
  | unknown => "error"
  | safe => "safe"
  | warning => "warning"
  | danger => "danger"
  | forbidden => "forbidden"

/-- The name of a severity in messages. -/
def title : Severity → String
  | unknown => "Error"
  | safe => "Safe"
  | warning => "Warning"
  | danger => "Danger"
  | forbidden => "Forbidden"

def read? (s : String) : Option Severity := all.find? fun v => v.text = s

instance : Ord Severity := ⟨fun a b => compare a.index b.index⟩

theorem index_inj {a b : Severity} (h : a.index = b.index) : a = b := by
  cases a <;> cases b <;> first | rfl | cases h

instance : Std.LawfulEqOrd Severity where
  compare_self {a} := Nat.compare_eq_eq.2 (Eq.refl a.index)
  eq_of_compare h := index_inj (Nat.compare_eq_eq.1 h)

instance : Std.TransOrd Severity where
  eq_swap {a b} := Std.OrientedOrd.eq_swap (a := a.index) (b := b.index)
  isLE_trans {a b c} := Std.TransOrd.isLE_trans (a := a.index) (b := b.index) (c := c.index)

theorem read?_text (s : Severity) : read? s.text = some s := by cases s <;> decide

theorem mem_evaluationOrder {s : Severity} : s ∈ evaluationOrder ↔ s ≠ unknown := by
  cases s <;> decide

/-! ### By how strongly they block -/

/-- What could not be evaluated is below all that has a rank. -/
instance : LE Severity := ⟨fun a b => a.rank? ≤ b.rank?⟩

theorem le_iff {a b : Severity} : a ≤ b ↔ a.rank? ≤ b.rank? := .rfl

theorem unknown_le (s : Severity) : unknown ≤ s := Option.none_le

theorem le_refl (s : Severity) : s ≤ s := by cases s <;> simp [le_iff, rank?]

theorem le_antisymm {a b : Severity} (hab : a ≤ b) (hba : b ≤ a) : a = b := by
  rw [le_iff] at hab hba
  cases a <;> cases b <;> simp [rank?] at hab hba ⊢

theorem descending_evaluationOrder : evaluationOrder.Pairwise fun a b => b ≤ a := by
  simp [evaluationOrder, le_iff, rank?]

/-- What is found first in a descending list is the gravest that can be found. -/
theorem find?_eq_some_iff_of_descending {severities : List Severity}
    (h : severities.Pairwise fun a b => b ≤ a) {p : Severity → Bool} {s : Severity} :
    severities.find? p = some s ↔
      s ∈ severities ∧ p s = true ∧ ∀ t ∈ severities, p t = true → t ≤ s := by
  induction severities with
  | nil => simp
  | cons a rest ih =>
    rw [List.pairwise_cons] at h
    rw [List.find?_cons]
    by_cases ha : p a = true
    · simp only [ha, Option.some.injEq]
      constructor
      · rintro rfl
        refine ⟨List.mem_cons_self, ha, fun t ht _ => ?_⟩
        rcases List.mem_cons.1 ht with rfl | ht
        · exact le_refl t
        · exact h.1 t ht
      · rintro ⟨hs, -, hmax⟩
        rcases List.mem_cons.1 hs with rfl | hs
        · rfl
        · exact le_antisymm (hmax a List.mem_cons_self ha) (h.1 s hs)
    · have hrest : ∀ t, p t = true → (t ∈ a :: rest ↔ t ∈ rest) := by
        intro t ht
        rw [List.mem_cons]
        exact or_iff_right fun heq => ha (heq ▸ ht)
      simp only [ha, ih h.2]
      constructor
      · rintro ⟨hs, hp, hmax⟩
        exact ⟨(hrest s hp).2 hs, hp, fun t ht hpt => hmax t ((hrest t hpt).1 ht) hpt⟩
      · rintro ⟨hs, hp, hmax⟩
        exact ⟨(hrest s hp).1 hs, hp, fun t ht hpt => hmax t ((hrest t hpt).2 ht) hpt⟩

theorem find?_evaluationOrder_eq_some_iff {p : Severity → Bool} {s : Severity} :
    evaluationOrder.find? p = some s ↔
      s ≠ unknown ∧ p s = true ∧ ∀ t, t ≠ unknown → p t = true → t ≤ s := by
  rw [find?_eq_some_iff_of_descending descending_evaluationOrder]
  simp only [mem_evaluationOrder]

end Severity

end Countersign
