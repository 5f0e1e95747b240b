import Countersign.Json.Reader
import Countersign.Proofs.Json.Token

/-! Values read back as they are written. The text of a value spells its tokens, and its tokens put
it together again on the reader's stack. Where some arrays are read only until they are full, this
is said of values without arrays. Main statement: `readUntilFull?_append`. -/

namespace Countersign.Json

/-! ### The tokens of a value -/

mutual

def tokens : Json → List Token
  | .null => [.null]
  | .bool b => [.bool b]
  | .number n => [.number n]
  | .text w => [.text w]
  | .array items => .openArray :: tokensOfItems items
  | .object members => .openObject :: tokensOfMembers members

def tokensOfItems : List Json → List Token
  | [] => [.closeArray]
  | [j] => tokens j ++ [.closeArray]
  | j :: js => tokens j ++ .comma :: tokensOfItems js

def tokensOfMembers : List (Written × Json) → List Token
  | [] => [.closeObject]
  | [(name, j)] => .text name :: .colon :: (tokens j ++ [.closeObject])
  | (name, j) :: ms => .text name :: .colon :: (tokens j ++ .comma :: tokensOfMembers ms)

end

theorem tokensOfItems_cons_cons (j k : Json) (js : List Json) :
    tokensOfItems (j :: k :: js) = tokens j ++ .comma :: tokensOfItems (k :: js) := by
  simp [tokensOfItems]

theorem tokensOfMembers_cons_cons (name : Written) (j : Json) (m : Written × Json)
    (ms : List (Written × Json)) :
    tokensOfMembers ((name, j) :: m :: ms) =
      .text name :: .colon :: (tokens j ++ .comma :: tokensOfMembers (m :: ms)) := by
  simp [tokensOfMembers]

mutual

/-- No string of the value could be read as another one. -/
def IsProper : Json → Prop
  | .text w => w.IsProper
  | .array items => AreProper items
  | .object members => MembersAreProper members
  | _ => True

def AreProper : List Json → Prop
  | [] => True
  | j :: js => IsProper j ∧ AreProper js

def MembersAreProper : List (Written × Json) → Prop
  | [] => True
  | (name, j) :: ms => name.IsProper ∧ IsProper j ∧ MembersAreProper ms

end

mutual

def isArrayFree : Json → Bool
  | .array _ => false
  | .object members => membersAreArrayFree members
  | _ => true

def membersAreArrayFree : List (Written × Json) → Bool
  | [] => true
  | (_, j) :: ms => isArrayFree j && membersAreArrayFree ms

end

/-! ### Spelling -/

/-- The text consists of the tokens, with spaces between them. -/
inductive Spells : List Char → List Token → Prop where
  | nil : Spells [] []
  | space {c : Char} {cs : List Char} {ts : List Token} (hc : isSpace c = true)
      (h : Spells cs ts) : Spells (c :: cs) ts
  | token {t : Token} {rest : List Char} {ts : List Token} (ht : t.IsProper) (he : t.Ends rest)
      (h : Spells rest ts) : Spells (t.chars ++ rest) (t :: ts)

mutual

/-- The text of a value spells its tokens, provided that a number may end behind it. -/
theorem spells_compact : ∀ (j : Json), j.IsProper → ∀ {rest : List Char} {ts : List Token},
    Numeral.Ends rest → Spells rest ts → Spells (compact j ++ rest) (tokens j ++ ts)
  | .null, _, _, _, _, h => .token (t := .null) trivial trivial h
  | .bool true, _, _, _, _, h => .token (t := .bool true) trivial trivial h
  | .bool false, _, _, _, _, h => .token (t := .bool false) trivial trivial h
  | .number n, _, _, _, he, h => .token (t := .number n) trivial he h
  | .text w, hp, _, _, _, h => .token (t := .text w) hp trivial h
  | .array items, hp, _, _, _, h =>
    .token (t := .openArray) trivial trivial (spells_compactItems items hp h)
  | .object members, hp, _, _, _, h =>
    .token (t := .openObject) trivial trivial (spells_compactMembers members hp h)

theorem spells_compactItems : ∀ (items : List Json), AreProper items →
    ∀ {rest : List Char} {ts : List Token}, Spells rest ts →
    Spells (compactItems items ++ rest) (tokensOfItems items ++ ts)
  | [], _, _, _, h => .token (t := .closeArray) trivial trivial h
  | [j], hp, rest, ts, h => by
    have hclose : Spells (']' :: rest) (.closeArray :: ts) :=
      .token (t := .closeArray) trivial trivial h
    have := spells_compact j hp.1 (Numeral.ends_cons (by decide)) hclose
    simpa [compactItems, tokensOfItems] using this
  | j :: k :: js, hp, rest, ts, h => by
    have hcomma : Spells (',' :: (compactItems (k :: js) ++ rest))
        (.comma :: (tokensOfItems (k :: js) ++ ts)) :=
      .token (t := .comma) trivial trivial (spells_compactItems (k :: js) hp.2 h)
    have := spells_compact j hp.1 (Numeral.ends_cons (by decide)) hcomma
    simpa [compactItems, tokensOfItems] using this

theorem spells_compactMembers : ∀ (members : List (Written × Json)), MembersAreProper members →
    ∀ {rest : List Char} {ts : List Token}, Spells rest ts →
    Spells (compactMembers members ++ rest) (tokensOfMembers members ++ ts)
  | [], _, _, _, h => .token (t := .closeObject) trivial trivial h
  | [(name, j)], hp, rest, ts, h => by
    have hclose : Spells ('}' :: rest) (.closeObject :: ts) :=
      .token (t := .closeObject) trivial trivial h
    have hvalue := spells_compact j hp.2.1 (Numeral.ends_cons (by decide)) hclose
    have hcolon : Spells (':' :: (compact j ++ '}' :: rest)) _ :=
      .token (t := .colon) trivial trivial hvalue
    have : Spells _ _ := .token (t := .text name) hp.1 trivial hcolon
    simpa [compactMembers, tokensOfMembers, Token.chars] using this
  | (name, j) :: m :: ms, hp, rest, ts, h => by
    have hcomma : Spells (',' :: (compactMembers (m :: ms) ++ rest))
        (.comma :: (tokensOfMembers (m :: ms) ++ ts)) :=
      .token (t := .comma) trivial trivial (spells_compactMembers (m :: ms) hp.2.2 h)
    have hvalue := spells_compact j hp.2.1 (Numeral.ends_cons (by decide)) hcomma
    have hcolon : Spells (':' :: (compact j ++ ',' :: (compactMembers (m :: ms) ++ rest))) _ :=
      .token (t := .colon) trivial trivial hvalue
    have : Spells _ _ := .token (t := .text name) hp.1 trivial hcolon
    simpa [compactMembers, tokensOfMembers, Token.chars] using this

end

/-! ### The characters of a value -/

/-- There is no control character in the text. -/
def Printable (cs : List Char) : Prop := ∀ c ∈ cs, 0x20 ≤ c.toNat

namespace Printable

theorem nil : Printable [] := by simp [Printable]

theorem cons {c : Char} {cs : List Char} (hc : 0x20 ≤ c.toNat) (h : Printable cs) :
    Printable (c :: cs) := by
  intro d hd
  rcases List.mem_cons.1 hd with rfl | hd
  · exact hc
  · exact h d hd

theorem of_all {cs : List Char} (h : (cs.all fun c => 0x20 ≤ c.toNat) = true) : Printable cs := by
  simpa [Printable] using h

theorem append {cs ds : List Char} (hc : Printable cs) (hd : Printable ds) :
    Printable (cs ++ ds) := by
  intro c hmem
  rcases List.mem_append.1 hmem with h | h
  · exact hc c h
  · exact hd c h

theorem digits (ds : List Digit) : Printable (ds.map Digit.char) := by
  have hdigit : ∀ d : Digit, 0x20 ≤ d.char.toNat := by decide
  intro c hc
  obtain ⟨d, -, rfl⟩ := List.mem_map.1 hc
  exact hdigit d

theorem hexDigits (ds : List (Fin 16)) : Printable (ds.map Text.Hex.char) := by
  have hdigit : ∀ d : Fin 16, 0x20 ≤ (Text.Hex.char d).toNat := by decide
  intro c hc
  obtain ⟨d, -, rfl⟩ := List.mem_map.1 hc
  exact hdigit d

theorem numeral (n : Numeral) : Printable n.text := by
  rw [Numeral.text_eq]
  refine append ?_ (append (digits _) (append ?_ ?_))
  · cases n.negative
    · exact nil
    · exact cons (by decide) nil
  · rw [Numeral.fractionText]
    split
    · exact nil
    · exact cons (by decide) (digits _)
  · cases n.exponent with
    | none => exact nil
    | some e =>
      refine cons (by decide) (cons ?_ (digits _))
      split <;> decide

theorem piece {p : Piece} (h : p.IsProper) : Printable p.text := by
  cases p with
  | plain c => exact cons h.2.2 nil
  | escape c =>
    have hletter : 0x20 ≤ ((escapeLetter? c).getD c).toNat := by
      have hmem := Written.mem_of_isSome_escapeLetter? h
      simp only [List.mem_cons, List.not_mem_nil, or_false] at hmem
      rcases hmem with rfl | rfl | rfl | rfl | rfl | rfl | rfl | rfl <;> decide
    exact cons (by decide) (cons hletter nil)
  | unit n => exact cons (by decide) (cons (by decide) (hexDigits _))

theorem quoted {w : Written} (h : w.IsProper) : Printable (quoted w) := by
  refine cons (by decide) (append ?_ (cons (by decide) nil))
  intro c hc
  obtain ⟨p, hp, hmem⟩ := List.mem_flatMap.1 hc
  exact piece (h p hp) c hmem

end Printable

mutual

theorem printable_compact : ∀ (j : Json), j.IsProper → Printable (compact j)
  | .null, _ => .of_all rfl
  | .bool true, _ => .of_all rfl
  | .bool false, _ => .of_all rfl
  | .number n, _ => .numeral n
  | .text _, h => .quoted h
  | .array items, h => .cons (by decide) (printable_compactItems items h)
  | .object members, h => .cons (by decide) (printable_compactMembers members h)

theorem printable_compactItems :
    ∀ (items : List Json), AreProper items → Printable (compactItems items)
  | [], _ => .cons (by decide) .nil
  | [j], h => .append (printable_compact j h.1) (.cons (by decide) .nil)
  | j :: k :: js, h =>
    .append (printable_compact j h.1) (.cons (by decide) (printable_compactItems (k :: js) h.2))

theorem printable_compactMembers :
    ∀ (members : List (Written × Json)), MembersAreProper members →
    Printable (compactMembers members)
  | [], _ => .cons (by decide) .nil
  | [(_, j)], h =>
    .append (.append (.quoted h.1) (.cons (by decide) (printable_compact j h.2.1)))
      (.cons (by decide) .nil)
  | (_, j) :: m :: ms, h =>
    .append (.append (.quoted h.1) (.cons (by decide) (printable_compact j h.2.1)))
      (.cons (by decide) (printable_compactMembers (m :: ms) h.2.2))

end

theorem getLast?_compactMembers : ∀ members : List (Written × Json),
    (compactMembers members).getLast? = some '}'
  | [] => rfl
  | [(name, j)] => by rw [compactMembers, List.getLast?_concat]
  | (name, j) :: m :: ms => by
    have ih := getLast?_compactMembers (m :: ms)
    rw [compactMembers, List.getLast?_append, List.getLast?_cons, ih]
    · rfl
    · exact List.cons_ne_nil m ms

theorem getLast?_compact_object (members : List (Written × Json)) :
    (compact (.object members)).getLast? = some '}' := by
  rw [compact, List.getLast?_cons, getLast?_compactMembers, Option.getD_some]

/-! ### Putting a value together -/

namespace State

/-- Takes tokens one after the other. No comma may come where an array is full. -/
def steps (full : List Frame → Bool) : State → List Token → Option State
  | s, [] => some s
  | s, t :: ts =>
    if t = .comma ∧ s.isFull full = true then none else (s.step t).bind fun s => s.steps full ts

variable {full : List Frame → Bool}

theorem steps_cons_of_ne {t : Token} (h : t ≠ .comma) (s : State) (ts : List Token) :
    s.steps full (t :: ts) = (s.step t).bind fun s => s.steps full ts := by
  rw [steps, if_neg fun hc => h hc.1]

theorem steps_singleton {t : Token} (h : t ≠ .comma) (s : State) :
    s.steps full [t] = s.step t := by
  rw [steps_cons_of_ne h]
  exact Option.bind_fun_some _

theorem steps_comma {s : State} (h : s.isFull full = false) (ts : List Token) :
    s.steps full (.comma :: ts) = (s.step .comma).bind fun s => s.steps full ts := by
  rw [steps, if_neg (by simp [h])]

theorem steps_append (s : State) (ts us : List Token) :
    s.steps full (ts ++ us) = (s.steps full ts).bind fun s => s.steps full us := by
  induction ts generalizing s with
  | nil => rfl
  | cons t ts ih =>
    rw [List.cons_append, steps, steps]
    split
    · rfl
    · simp only [ih, Option.bind_assoc]

/-- A value may start here, and belongs to the top of the stack. -/
def Awaits (s : State) (stack : List Frame) : Prop :=
  s = reading .value stack ∨ s = reading .firstItem stack

theorem Awaits.step {s : State} {stack : List Frame} (h : s.Awaits stack) {t : Token}
    (ht : t ≠ .closeArray) : s.step t = startValue stack t := by
  rcases h with rfl | rfl
  · rfl
  · unfold State.step
    split <;> simp_all

end State

section

variable {full : List Frame → Bool}

theorem readFrom_token {t : Token} (ht : t.IsProper) {rest : List Char} (he : t.Ends rest)
    {s : State} (hfull : t = .comma → s.isFull full = false) :
    readFrom full s (t.chars ++ rest) = (s.step t).bind fun s => readFrom full s rest := by
  obtain ⟨c, cs, hchars, hspace, hcomma⟩ := t.exists_chars_eq_cons
  have hread : Token.read? (c :: (cs ++ rest)) = some (t, rest) := by
    rw [← List.cons_append, ← hchars]
    exact Token.read?_chars_append ht he
  have hno : ¬(c = ',' && s.isFull full) = true := by
    simp only [Bool.and_eq_true, decide_eq_true_eq]
    rintro ⟨hc, hf⟩
    rw [hfull (hcomma hc)] at hf
    cases hf
  rw [hchars, List.cons_append, readFrom, if_neg (by simp [hspace]), if_neg hno]
  split
  · next hnone => rw [hread] at hnone; cases hnone
  · next hsome =>
    rw [hread] at hsome
    cases hsome
    cases s.step t <;> rfl

/-- A text is read by taking the tokens that it spells. -/
theorem readFrom_of_spells {cs : List Char} {ts us : List Token} (h : Spells cs (ts ++ us))
    {s s' : State} (hs : s.steps full ts = some s') :
    ∃ rest, Spells rest us ∧ readFrom full s cs = readFrom full s' rest := by
  -- On the spelling of the whole text, for every point up to which its tokens are taken.
  generalize hall : ts ++ us = all at h
  induction h generalizing s ts with
  | nil =>
    obtain ⟨rfl, rfl⟩ := List.append_eq_nil_iff.1 hall
    cases hs
    exact ⟨[], .nil, rfl⟩
  | space hc _ ih =>
    obtain ⟨rest, hrest, hread⟩ := ih hs hall
    exact ⟨rest, hrest, by rw [readFrom, if_pos hc, hread]⟩
  | @token t rest all ht he h ih =>
    cases ts with
    | nil =>
      cases hs
      obtain rfl : us = t :: all := hall
      exact ⟨t.chars ++ rest, .token ht he h, rfl⟩
    | cons t' ts =>
      obtain ⟨rfl, hrest⟩ := List.cons.inj hall
      rw [State.steps] at hs
      split at hs
      · cases hs
      · next hnot =>
        obtain ⟨s₁, hstep, hsteps⟩ := Option.bind_eq_some_iff.1 hs
        have hfull : t' = .comma → s.isFull full = false := by
          intro hc
          simpa [hc] using hnot
        obtain ⟨rest', hrest', hread⟩ := ih hsteps hrest
        exact ⟨rest', hrest', by rw [readFrom_token ht he hfull, hstep, Option.bind_some, hread]⟩

theorem readFrom_finished_of_spells {cs : List Char} {ts : List Token} (h : Spells cs ts)
    (j : Json) : readFrom full (.finished j) cs = if ts = [] then some j else none := by
  induction h with
  | nil => rw [readFrom]; rfl
  | space hc _ ih => rw [readFrom, if_pos hc, ih]
  | token ht he _ _ =>
    rw [readFrom_token ht he fun _ => rfl, if_neg (by simp)]
    rfl

open State

mutual

/-- The tokens of a value put it in its place. -/
theorem steps_tokens (hobject : ∀ members stack, full (.object members :: stack) = false) :
    ∀ (j : Json), (j.isArrayFree = true ∨ ∀ stack, full stack = false) →
    ∀ {stack : List Frame} {s : State}, s.Awaits stack →
    s.steps full (tokens j) = place j stack
  | .null, _, _, _, ha => by
    rw [tokens, steps_singleton (by decide), ha.step (by decide)]
    rfl
  | .bool b, _, _, _, ha => by
    rw [tokens, steps_singleton (by simp), ha.step (by simp)]
    rfl
  | .number n, _, _, _, ha => by
    rw [tokens, steps_singleton (by simp), ha.step (by simp)]
    rfl
  | .text w, _, _, _, ha => by
    rw [tokens, steps_singleton (by simp), ha.step (by simp)]
    rfl
  | .array items, hfree, _, _, ha => by
    have hfull : ∀ stack, full stack = false := hfree.resolve_left (by simp [isArrayFree])
    rw [tokens, steps_cons_of_ne (by decide), ha.step (by decide)]
    exact steps_tokensOfItems hobject items hfull (.inl rfl)
  | .object members, hfree, _, _, ha => by
    rw [tokens, steps_cons_of_ne (by decide), ha.step (by decide)]
    exact steps_tokensOfMembers hobject members hfree (.inl rfl)

theorem steps_tokensOfItems (hobject : ∀ members stack, full (.object members :: stack) = false) :
    ∀ (items : List Json), (∀ stack, full stack = false) →
    ∀ {acc : List Json} {stack : List Frame} {s : State},
    (s = reading .firstItem (.array acc :: stack) ∨
      items ≠ [] ∧ s = reading .value (.array acc :: stack)) →
    s.steps full (tokensOfItems items) = place (.array (acc.reverse ++ items)) stack
  | [], _, acc, stack, s, hs => by
    have hs : s = reading .firstItem (.array acc :: stack) :=
      hs.resolve_right fun h => h.1 rfl
    rw [tokensOfItems, steps_singleton (by decide), hs, List.append_nil]
    rfl
  | [j], hfull, acc, stack, s, hs => by
    have ha : s.Awaits (.array acc :: stack) := hs.symm.imp_left And.right
    rw [tokensOfItems, steps_append, steps_tokens hobject j (.inr hfull) ha]
    simp [place, steps, step]
  | j :: k :: js, hfull, acc, stack, s, hs => by
    have ha : s.Awaits (.array acc :: stack) := hs.symm.imp_left And.right
    have hsep : (reading .separator (.array (j :: acc) :: stack)).isFull full = false := hfull _
    rw [tokensOfItems_cons_cons, steps_append, steps_tokens hobject j (.inr hfull) ha,
      place, Option.bind_some, steps_comma hsep, step, Option.bind_some,
      steps_tokensOfItems hobject (k :: js) hfull (.inr ⟨by simp, rfl⟩)]
    simp

theorem steps_tokensOfMembers
    (hobject : ∀ members stack, full (.object members :: stack) = false) :
    ∀ (members : List (Written × Json)),
    (membersAreArrayFree members = true ∨ ∀ stack, full stack = false) →
    ∀ {acc : List (Written × Json)} {stack : List Frame} {s : State},
    (s = reading .firstName (.object acc :: stack) ∨
      members ≠ [] ∧ s = reading .name (.object acc :: stack)) →
    s.steps full (tokensOfMembers members) = place (.object (acc.reverse ++ members)) stack
  | [], _, acc, stack, s, hs => by
    have hs : s = reading .firstName (.object acc :: stack) :=
      hs.resolve_right fun h => h.1 rfl
    rw [tokensOfMembers, steps_singleton (by decide), hs, List.append_nil]
    rfl
  | [(name, j)], hfree, acc, stack, s, hs => by
    have hname : s.step (.text name) = some (reading .colon (.member acc name :: stack)) := by
      rcases hs with rfl | ⟨-, rfl⟩ <;> rfl
    have hj : j.isArrayFree = true ∨ ∀ stack, full stack = false :=
      hfree.imp_left fun h => by simpa [membersAreArrayFree] using h
    rw [tokensOfMembers, steps_cons_of_ne (by simp), hname, Option.bind_some,
      steps_cons_of_ne (by decide), step, Option.bind_some, steps_append,
      steps_tokens hobject j hj (.inl rfl)]
    simp [place, steps, step]
  | (name, j) :: m :: ms, hfree, acc, stack, s, hs => by
    have hname : s.step (.text name) = some (reading .colon (.member acc name :: stack)) := by
      rcases hs with rfl | ⟨-, rfl⟩ <;> rfl
    have hj : j.isArrayFree = true ∨ ∀ stack, full stack = false :=
      hfree.imp_left fun h => by
        rw [membersAreArrayFree, Bool.and_eq_true] at h
        exact h.1
    have hms : membersAreArrayFree (m :: ms) = true ∨ ∀ stack, full stack = false :=
      hfree.imp_left fun h => by
        rw [membersAreArrayFree, Bool.and_eq_true] at h
        exact h.2
    have hsep : (reading .separator (.object ((name, j) :: acc) :: stack)).isFull full = false :=
      hobject _ _
    rw [tokensOfMembers_cons_cons, steps_cons_of_ne (by simp), hname, Option.bind_some,
      steps_cons_of_ne (by decide), step, Option.bind_some, steps_append,
      steps_tokens hobject j hj (.inl rfl), place, Option.bind_some, steps_comma hsep, step,
      Option.bind_some,
      steps_tokensOfMembers hobject (m :: ms) hms (.inr ⟨by simp, rfl⟩)]
    simp

end

/-- A value reads back as it is written, if no array in it may be full before it ends and no token
stands behind it. -/
theorem readUntilFull?_append {j : Json} (hproper : j.IsProper)
    (hobject : ∀ members stack, full (.object members :: stack) = false)
    (hfree : j.isArrayFree = true ∨ ∀ stack, full stack = false) {rest : List Char}
    {ts : List Token} (hends : Numeral.Ends rest) (h : Spells rest ts) :
    readUntilFull? full (compact j ++ rest) = if ts = [] then some j else none := by
  have hsteps : (reading .value []).steps full (tokens j) = some (finished j) :=
    steps_tokens hobject j hfree (.inl rfl)
  obtain ⟨rest', hrest', hread⟩ := readFrom_of_spells (spells_compact j hproper hends h) hsteps
  rw [readUntilFull?, hread, readFrom_finished_of_spells hrest']

theorem readUntilFull?_compact {j : Json} (hproper : j.IsProper)
    (hobject : ∀ members stack, full (.object members :: stack) = false)
    (hfree : j.isArrayFree = true ∨ ∀ stack, full stack = false) :
    readUntilFull? full (compact j) = some j := by
  have h := readUntilFull?_append hproper hobject hfree Numeral.ends_nil .nil
  rwa [List.append_nil] at h

theorem read?_compact {j : Json} (hproper : j.IsProper) : read? (compact j) = some j :=
  readUntilFull?_compact hproper (fun _ _ => rfl) (.inr fun _ => rfl)

end

end Countersign.Json
