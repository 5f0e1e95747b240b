import Countersign.Json.Printer
import Countersign.Proofs.Json.Compact

/-! Values read back as they are written over several lines. The lines and their indentation are
spaces between the same tokens. Main statement: `read?_pretty`. -/

namespace Countersign.Json

theorem spells_spaces {rest : List Char} {ts : List Token} (n : Nat) (h : Spells rest ts) :
    Spells (List.replicate n ' ' ++ rest) ts := by
  induction n with
  | zero => exact h
  | succ n ih => exact .space (by decide) ih

theorem spells_newline {rest : List Char} {ts : List Token} (indent : Nat) (h : Spells rest ts) :
    Spells (newline indent ++ rest) ts :=
  .space (by decide) (spells_spaces (2 * indent) h)

theorem ends_newline (indent : Nat) (rest : List Char) : Numeral.Ends (newline indent ++ rest) :=
  Numeral.ends_cons (by decide)

/-- A name and its value, with a space between them. -/
theorem spells_member {name : Written} (hp : name.IsProper) {rest : List Char} {ts : List Token}
    (h : Spells rest ts) :
    Spells (quoted name ++ ':' :: ' ' :: rest) (.text name :: .colon :: ts) := by
  have hcolon : Spells (':' :: ' ' :: rest) (.colon :: ts) :=
    .token (t := .colon) trivial trivial (.space (by decide) h)
  exact .token (t := .text name) hp trivial hcolon

mutual

/-- The text of a value spells its tokens, provided that a number may end behind it. -/
theorem spells_pretty : ∀ (j : Json) (indent : Nat), j.IsProper →
    ∀ {rest : List Char} {ts : List Token}, Numeral.Ends rest → Spells rest ts →
    Spells (pretty indent j ++ rest) (tokens j ++ ts)
  | .null, _, hp, _, _, he, h => spells_compact .null hp he h
  | .bool b, _, hp, _, _, he, h => spells_compact (.bool b) hp he h
  | .number n, _, hp, _, _, he, h => spells_compact (.number n) hp he h
  | .text w, _, hp, _, _, he, h => spells_compact (.text w) hp he h
  | .array [], _, hp, _, _, he, h => spells_compact (.array []) hp he h
  | .object [], _, hp, _, _, he, h => spells_compact (.object []) hp he h
  | .array (j :: js), indent, hp, _, _, _, h =>
    .token (t := .openArray) trivial trivial (spells_prettyItems (j :: js) indent hp h)
  | .object (m :: ms), indent, hp, _, _, _, h =>
    .token (t := .openObject) trivial trivial (spells_prettyMembers (m :: ms) indent hp h)

theorem spells_prettyItems : ∀ (items : List Json) (indent : Nat), AreProper items →
    ∀ {rest : List Char} {ts : List Token}, Spells rest ts →
    Spells (prettyItems indent items ++ rest) (tokensOfItems items ++ ts)
  | [], indent, _, rest, ts, h => by
    have hclose : Spells (newline indent ++ ']' :: rest) (.closeArray :: ts) :=
      spells_newline indent (.token (t := .closeArray) trivial trivial h)
    simpa [prettyItems, tokensOfItems] using hclose
  | [j], indent, hp, rest, ts, h => by
    have hclose : Spells (newline indent ++ ']' :: rest) (.closeArray :: ts) :=
      spells_newline indent (.token (t := .closeArray) trivial trivial h)
    have hitem := spells_pretty j (indent + 1) hp.1 (ends_newline _ _) hclose
    simpa [prettyItems, tokensOfItems] using spells_newline (indent + 1) hitem
  | j :: k :: js, indent, hp, rest, ts, h => by
    have hcomma : Spells (',' :: (prettyItems indent (k :: js) ++ rest))
        (.comma :: (tokensOfItems (k :: js) ++ ts)) :=
      .token (t := .comma) trivial trivial (spells_prettyItems (k :: js) indent hp.2 h)
    have hitem := spells_pretty j (indent + 1) hp.1 (Numeral.ends_cons (by decide)) hcomma
    simpa [prettyItems, tokensOfItems] using spells_newline (indent + 1) hitem

theorem spells_prettyMembers : ∀ (members : List (Written × Json)) (indent : Nat),
    MembersAreProper members → ∀ {rest : List Char} {ts : List Token}, Spells rest ts →
    Spells (prettyMembers indent members ++ rest) (tokensOfMembers members ++ ts)
  | [], indent, _, rest, ts, h => by
    have hclose : Spells (newline indent ++ '}' :: rest) (.closeObject :: ts) :=
      spells_newline indent (.token (t := .closeObject) trivial trivial h)
    simpa [prettyMembers, tokensOfMembers] using hclose
  | [(name, j)], indent, hp, rest, ts, h => by
    have hclose : Spells (newline indent ++ '}' :: rest) (.closeObject :: ts) :=
      spells_newline indent (.token (t := .closeObject) trivial trivial h)
    have hvalue := spells_pretty j (indent + 1) hp.2.1 (ends_newline _ _) hclose
    have hmember := spells_member hp.1 hvalue
    simpa [prettyMembers, tokensOfMembers] using spells_newline (indent + 1) hmember
  | (name, j) :: m :: ms, indent, hp, rest, ts, h => by
    have hcomma : Spells (',' :: (prettyMembers indent (m :: ms) ++ rest))
        (.comma :: (tokensOfMembers (m :: ms) ++ ts)) :=
      .token (t := .comma) trivial trivial (spells_prettyMembers (m :: ms) indent hp.2.2 h)
    have hvalue := spells_pretty j (indent + 1) hp.2.1 (Numeral.ends_cons (by decide)) hcomma
    have hmember := spells_member hp.1 hvalue
    simpa [prettyMembers, tokensOfMembers] using spells_newline (indent + 1) hmember

end

/-- A value reads back as it is written over several lines. -/
theorem read?_pretty {j : Json} (hproper : j.IsProper) (indent : Nat) :
    read? (pretty indent j) = some j := by
  have hspells : Spells (pretty indent j ++ []) (tokens j ++ []) :=
    spells_pretty j indent hproper Numeral.ends_nil .nil
  rw [List.append_nil] at hspells
  have hsteps : (State.reading .value []).steps (fun _ => false) (tokens j) = some (.finished j) :=
    steps_tokens (fun _ _ => rfl) j (.inr fun _ => rfl) (.inl rfl)
  obtain ⟨rest, hrest, hread⟩ := readFrom_of_spells hspells hsteps
  rw [read?, readUntilFull?, hread, readFrom_finished_of_spells hrest, if_pos rfl]

end Countersign.Json
