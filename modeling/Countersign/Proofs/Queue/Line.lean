import Countersign.Proofs.Json.Field
import Countersign.Queue.Line
import Countersign.Text.Blank
import Countersign.Text.Utf8

/-! The line of a record reads back as the record, whatever its texts are, and holds no line break.
Main statements: `read?_line`, `le_toNat_of_mem_utf8_line`. -/

namespace Countersign.PendingRecord

variable (r : PendingRecord)

theorem nodup_fields : fields.Nodup := by decide

/-! ### The value of a record -/

theorem isProper_isArrayFree_of_mem_slots {j : Json} (h : some j ∈ r.slots) :
    j.IsProper ∧ j.isArrayFree = true := by
  have hnat : ∀ n, (Json.ofNat n).IsProper ∧ (Json.ofNat n).isArrayFree = true :=
    fun n => ⟨trivial, rfl⟩
  have htext : ∀ s, (Json.ofString s).IsProper ∧ (Json.ofString s).isArrayFree = true :=
    fun s => ⟨Json.Written.isProper_encode s, rfl⟩
  have hbool : ∀ b, (Json.bool b).IsProper ∧ (Json.bool b).isArrayFree = true :=
    fun b => ⟨trivial, rfl⟩
  simp only [slots, List.mem_cons, List.not_mem_nil, or_false, Option.some.injEq] at h
  have hmap : ∀ {α : Type} {o : Option α} {write : α → Json}, some j = o.map write →
      ∃ a, j = write a := by
    intro α o write ho
    obtain ⟨a, -, ha⟩ := Option.map_eq_some_iff.1 ho.symm
    exact ⟨a, ha.symm⟩
  rcases h with rfl | rfl | rfl | h | h | h | h | h | h | rfl
  · exact hnat _
  · exact htext _
  · exact hnat _
  · obtain ⟨s, rfl⟩ := hmap h; exact htext s
  · obtain ⟨g, rfl⟩ := hmap h; exact hnat _
  · obtain ⟨s, rfl⟩ := hmap h; exact htext s
  · obtain ⟨s, rfl⟩ := hmap h; exact htext s
  · obtain ⟨s, rfl⟩ := hmap h; exact htext s
  · obtain ⟨s, rfl⟩ := hmap h; exact htext s
  · exact hbool _

theorem isProper_json : r.json.IsProper :=
  Json.isProper_ofFields fun _ hf =>
    (r.isProper_isArrayFree_of_mem_slots (Json.mem_members hf).2).1

theorem isArrayFree_json : r.json.isArrayFree = true :=
  Json.isArrayFree_ofFields fun _ hf =>
    (r.isProper_isArrayFree_of_mem_slots (Json.mem_members hf).2).2

@[simp] theorem sender?_ofString_text (a : Address) : sender? (Json.ofString a.text) = some a := by
  have hstring : (Json.ofString a.text).string? = some a.text := Json.string?_ofString _
  rw [Json.ofString] at hstring ⊢
  rw [sender?, hstring]
  · exact Address.read?_text a
  · intro items hi
    cases hi

theorem optional?_map {α : Type} {read : Json → Option α} {write : α → Json}
    (h : ∀ a, Json.optional? read (write a) = some (some a)) (o : Option α) :
    optional? read (o.map write) = some o := by
  cases o with
  | none => rfl
  | some a => exact h a

theorem optional?_string? (o : Option String) :
    optional? Json.string? (o.map Json.ofString) = some o := by
  refine optional?_map (fun s => ?_) o
  exact congrArg (Option.map some) (Json.string?_ofString s)

theorem optional?_word? (o : Option UInt64) :
    optional? Json.word? (o.map fun w => Json.ofNat w.toNat) = some o := by
  refine optional?_map (fun w => ?_) o
  exact congrArg (Option.map some) (Json.word?_ofNat w)

/-- The value that is written for a record describes it. -/
theorem ofJson?_json : ofJson? r.json = some r := by
  have hslots : r.json.slots? fields = some r.slots := Json.slots?_ofFields nodup_fields rfl
  rw [ofJson?, hslots]
  simp only [slots, Option.bind_eq_bind, Option.bind_some, Json.required?, Json.word?_ofNat,
    sender?_ofString_text, optional?_string?, optional?_word?, Json.default?, Json.bool?]
  rfl

/-! ### The line -/

theorem senderIsFull_object (members : List (Json.Written × Json)) (stack : List Json.Frame) :
    senderIsFull (.object members :: stack) = false := by
  unfold senderIsFull
  split <;> simp_all

theorem read?_line : read? r.line.toList = some r := by
  have h : Json.readUntilFull? senderIsFull r.json.compact = some r.json :=
    Json.readUntilFull?_compact r.isProper_json senderIsFull_object (.inl r.isArrayFree_json)
  rw [read?, line, String.toList_ofList, h]
  exact r.ofJson?_json

/-- Two records on one line are none. -/
theorem read?_line_append_line (s : PendingRecord) :
    read? (r.line.toList ++ s.line.toList) = none := by
  have hspells : Json.Spells (s.json.compact ++ []) (s.json.tokens ++ []) :=
    Json.spells_compact s.json s.isProper_json Numeral.ends_nil .nil
  rw [List.append_nil] at hspells
  have hends : Numeral.Ends s.json.compact := Numeral.ends_cons (by decide)
  have h : Json.readUntilFull? senderIsFull (r.json.compact ++ s.json.compact) = none :=
    Json.readUntilFull?_append r.isProper_json senderIsFull_object (.inl r.isArrayFree_json)
      hends hspells
  rw [read?, line, line, String.toList_ofList, String.toList_ofList, h]
  rfl

theorem le_toNat_of_mem_line {c : Char} (hc : c ∈ r.line.toList) : 0x20 ≤ c.toNat := by
  rw [line, String.toList_ofList] at hc
  exact Json.printable_compact r.json r.isProper_json c hc

/-- The bytes of a line are no control characters, so nothing in it ends a line. -/
theorem le_toNat_of_mem_utf8_line {b : UInt8} (hb : b ∈ Text.utf8 r.line) : 0x20 ≤ b.toNat := by
  refine Nat.le_of_not_lt fun hlt => ?_
  obtain ⟨c, hc, heq⟩ := Text.exists_mem_of_mem_utf8 (by omega) hb
  have hle : 0x20 ≤ c.toNat := r.le_toNat_of_mem_line hc
  omega

theorem head?_line : r.line.toList.head? = some '{' := by
  rw [line, String.toList_ofList]
  rfl

theorem getLast?_line : r.line.toList.getLast? = some '}' := by
  rw [line, String.toList_ofList]
  show (Json.compact (.object _)).getLast? = some '}'
  exact Json.getLast?_compact_object _

end Countersign.PendingRecord
