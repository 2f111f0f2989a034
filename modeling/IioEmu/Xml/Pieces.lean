import IioEmu.Xml.Reader

/-! # Reading the pieces of a document

Each piece of a text takes the reader from one state to another: the characters of a name,
the characters of an attribute's value with references for some of them, a list of
attributes, a tag. A document is read piece by piece. -/

namespace IioEmu.Xml

@[simp] theorem run_nil (state : State) : run state [] = some state := rfl

theorem run_cons (state : State) (c : Char) (text : List Char) :
    run state (c :: text) = (step state c).bind fun next => run next text := rfl

theorem run_append (state : State) (first second : List Char) :
    run state (first ++ second) = (run state first).bind fun next => run next second := by
  rw [run, List.foldlM_append]
  rfl

theorem run_append_of_some {state middle : State} {first : List Char}
    (read : run state first = some middle) (second : List Char) :
    run state (first ++ second) = run middle second := by
  rw [run_append, read]
  rfl

theorem run_cons_of_some {state next : State} {c : Char}
    (stepped : step state c = some next) (text : List Char) :
    run state (c :: text) = run next text := by
  rw [run_cons, stepped]
  rfl

namespace State

@[simp] theorem become_become (state : State) (mode other : Mode) :
    (state.become mode).become other = state.become other := rfl

@[simp] theorem frames_become (state : State) (mode : Mode) :
    (state.become mode).frames = state.frames := rfl

@[simp] theorem root_become (state : State) (mode : Mode) :
    (state.become mode).root = state.root := rfl

@[simp] theorem mode_become (state : State) (mode : Mode) :
    (state.become mode).mode = mode := rfl

@[simp] theorem addNode_become (state : State) (mode : Mode) (node : XmlNode) :
    (state.become mode).addNode node = (state.addNode node).become mode := by
  unfold addNode
  cases state with
  | mk frames root old => cases frames <;> rfl

@[simp] theorem flush_become (state : State) (mode : Mode) (text : List Char) :
    (state.become mode).flush text = (state.flush text).become mode := by
  unfold flush
  split
  · rfl
  · exact addNode_become state mode _

@[simp] theorem flush_nil (state : State) : state.flush [] = state := rfl

end State

/-! ## The parts of a step -/

theorem closeElement_cases {state next : State} {name : List Char}
    (closed : state.closeElement name = some next) :
    ∃ frame frames, state.frames = frame :: frames ∧
      next = ({ state with frames := frames }.addNode
        (.node frame.element frame.children)).resume := by
  rcases state with ⟨frames, root, mode⟩
  cases frames with
  | nil => cases closed
  | cons frame frames =>
      simp only [State.closeElement, Option.ite_none_right_eq_some,
        Option.some.injEq] at closed
      exact ⟨frame, frames, rfl, closed.2.symm⟩

theorem stepTag_cases {state next : State} {tag : XmlElement} {c : Char}
    (stepped : stepTag state tag c = some next) :
    next = state.become (.inTag tag) ∨ next = state.become (.slash tag) ∨
      next = state.openElement tag := by
  rw [stepTag] at stepped
  split at stepped
  · cases stepped
    exact Or.inl rfl
  split at stepped
  · cases stepped
    exact Or.inr (Or.inl rfl)
  · simp only [Option.ite_none_right_eq_some, Option.some.injEq] at stepped
    exact Or.inr (Or.inr stepped.2.symm)

theorem stepDeclaration_cases {state next : State} {seen : List Char}
    (stepped : stepDeclaration state seen = some next) :
    next = state.become (.comment 0) ∨ next = state.become (.declaration seen) ∨
      state.frames ≠ [] ∧ next = state.become (.cdata []) ∨
      state.root = none ∧ next = state.become (.doctype 0 none) := by
  rw [stepDeclaration] at stepped
  split at stepped
  · cases stepped
    exact Or.inl rfl
  split at stepped
  case isTrue inside =>
    simp only [Bool.and_eq_true, Bool.not_eq_true', List.isEmpty_eq_false_iff] at inside
    cases stepped
    exact Or.inr (Or.inr (Or.inl ⟨inside.2, rfl⟩))
  split at stepped
  case isTrue outside =>
    simp only [Bool.and_eq_true, Option.isNone_iff_eq_none] at outside
    cases stepped
    exact Or.inr (Or.inr (Or.inr ⟨outside.2, rfl⟩))
  · simp only [Option.ite_none_right_eq_some, Option.some.injEq] at stepped
    exact Or.inr (Or.inl stepped.2.symm)

theorem stepDoctype_cases (state : State) (depth : Nat) (quote : Option Char) (c : Char) :
    stepDoctype state depth quote c = state.become .misc ∨
      ∃ inner delimiter, stepDoctype state depth quote c =
        state.become (.doctype inner delimiter) := by
  cases quote with
  | some delimiter => exact Or.inr ⟨_, _, rfl⟩
  | none =>
      simp only [stepDoctype]
      split
      · exact Or.inr ⟨_, _, rfl⟩
      split
      · exact Or.inr ⟨_, _, rfl⟩
      split
      · exact Or.inr ⟨_, _, rfl⟩
      split
      · exact Or.inl rfl
      · exact Or.inr ⟨_, _, rfl⟩

/-! ## Names -/

theorem isAlpha_iff {c : Char} :
    c.isAlpha = true ↔ (65 ≤ c.toNat ∧ c.toNat ≤ 90) ∨
    (97 ≤ c.toNat ∧ c.toNat ≤ 122) := by
  have letters : c.isAlpha = (decide (c.val ≥ 65 ∧ c.val ≤ 90) ||
      (decide (c.val ≥ 97) && decide (c.val ≤ 122))) := rfl
  simp [letters, UInt32.le_iff_toNat_le, ← Char.toNat_val]

theorem isChar_of_isNameChar {c : Char} (named : isNameChar c = true) :
    isChar c = true := by
  simp only [isNameChar, isNameStart, Bool.or_eq_true,
    Bool.and_eq_true, decide_eq_true_eq, beq_iff_eq, ← Char.toNat_inj, isAlpha_iff,
    Char.isDigit_iff_toNat] at named
  simp only [isChar, Bool.or_eq_true, Bool.and_eq_true, decide_eq_true_eq, beq_iff_eq]
  simp at named
  omega

theorem isNameChar_of_isNameStart {c : Char} (named : isNameStart c = true) :
    isNameChar c = true := by
  simp [isNameChar, named]

theorem ne_of_isNameChar {c other : Char} (named : isNameChar c = true)
    (unnamed : isNameChar other = false) : c ≠ other := by
  intro equal
  rw [equal, unnamed] at named
  cases named

theorem isWhite_iff {c : Char} :
    isWhite c = true ↔ c = ' ' ∨ c = '\t' ∨ c = '\n' ∨ c = '\r' := by
  simp [isWhite, or_assoc]

theorem isChar_of_isWhite {c : Char} (white : isWhite c = true) : isChar c = true := by
  rcases isWhite_iff.mp white with rfl | rfl | rfl | rfl <;> decide

theorem isNameChar_of_isWhite {c : Char} (white : isWhite c = true) :
    isNameChar c = false := by
  rcases isWhite_iff.mp white with rfl | rfl | rfl | rfl <;> decide

structure IsName (name : List Char) : Prop where
  starts : ∃ first rest, name = first :: rest ∧ isNameStart first = true
  named : ∀ c ∈ name, isNameChar c = true

theorem isName_iff {name : List Char} :
    IsName name ↔ (name.head?.any isNameStart && name.all isNameChar) = true := by
  rw [Bool.and_eq_true, List.all_eq_true]
  constructor
  · rintro ⟨⟨first, rest, rfl, starts⟩, named⟩
    exact ⟨starts, named⟩
  · rintro ⟨starts, named⟩
    cases name with
    | nil => cases starts
    | cons first rest => exact ⟨⟨first, rest, rfl, starts⟩, named⟩

instance (name : List Char) : Decidable (IsName name) :=
  decidable_of_iff _ isName_iff.symm

theorem return_not_mem_of_isName {name : List Char}
    (isName : IsName name) : '\r' ∉ name := by
  intro member
  exact ne_of_isNameChar (isName.named _ member) (by decide) rfl

/-! ## Collecting characters -/

/-- A mode that collects characters, each written in its own way, collects a text. -/
theorem run_flatMap (state : State) (mode : List Char → Mode) (escape : Char → List Char)
    (text : List Char)
    (collects : ∀ c ∈ text, ∀ read, run (state.become (mode read)) (escape c) =
      some (state.become (mode (read ++ [c])))) (read : List Char) :
    run (state.become (mode read)) (text.flatMap escape) =
      some (state.become (mode (read ++ text))) := by
  induction text generalizing read with
  | nil => simp
  | cons c text induction =>
      rw [List.flatMap_cons, run_append_of_some (collects c (by simp) read),
        induction (fun other member => collects other (by simp [member]))]
      simp

theorem run_collect (state : State) (mode : List Char → Mode) (text : List Char)
    (collects : ∀ c ∈ text, ∀ read, step (state.become (mode read)) c =
      some (state.become (mode (read ++ [c])))) (read : List Char) :
    run (state.become (mode read)) text = some (state.become (mode (read ++ text))) := by
  have single := run_flatMap state mode (fun c => [c]) text
    (fun c member read => run_cons_of_some (collects c member read) []) read
  rwa [List.flatMap_singleton'] at single

section Names

variable (state : State) (more : List Char) (named : ∀ c ∈ more, isNameChar c = true)

include named

theorem run_startName (read : List Char) :
    run (state.become (.startName read)) more =
      some (state.become (.startName (read ++ more))) := by
  apply run_collect state .startName more
  intro c member read
  simp [step, isChar_of_isNameChar (named c member), named c member]

theorem run_attributeName (tag : XmlElement) (read : List Char) :
    run (state.become (.attributeName tag read)) more =
      some (state.become (.attributeName tag (read ++ more))) := by
  apply run_collect state (.attributeName tag) more
  intro c member read
  simp [step, isChar_of_isNameChar (named c member), named c member]

theorem run_endName (read : List Char) :
    run (state.become (.endName read)) more =
      some (state.become (.endName (read ++ more))) := by
  apply run_collect state .endName more
  intro c member read
  simp [step, isChar_of_isNameChar (named c member), named c member]

end Names

/-! ## References -/

theorem isChar_of_reference {c : Char} (allowed : (isNameChar c || c == '#') = true) :
    isChar c = true := by
  rw [Bool.or_eq_true] at allowed
  cases allowed with
  | inl isName => exact isChar_of_isNameChar isName
  | inr hash =>
      rw [eq_of_beq hash]
      decide

theorem ne_end_of_reference {c : Char} (allowed : (isNameChar c || c == '#') = true) :
    c ≠ ';' := by
  intro equal
  rw [equal] at allowed
  revert allowed
  decide

theorem run_valueReference (state : State) (tag : XmlElement) (name text : List Char)
    {reference : List Char} {char : Char}
    (named : ∀ c ∈ reference, (isNameChar c || c == '#') = true)
    (stands : referenced reference = some char) :
    run (state.become (.value tag name '"' text)) ('&' :: reference ++ [';']) =
      some (state.become (.value tag name '"' (text ++ [char]))) := by
  have collected := run_collect state (.valueReference tag name '"' text) reference
    (by
      intro c member read
      have allowed := named c member
      have valid := isChar_of_reference allowed
      have notEnd := ne_end_of_reference allowed
      simp only [Bool.or_eq_true, beq_iff_eq] at allowed
      simp [step, valid, notEnd, allowed]) []
  have opened : step (state.become (.value tag name '"' text)) '&' =
      some (state.become (.valueReference tag name '"' text [])) := by
    simp [step, isChar]
  have closed : step (state.become (.valueReference tag name '"' text reference)) ';' =
      some (state.become (.value tag name '"' (text ++ [char]))) := by
    simp [step, isChar, stands]
  rw [List.cons_append, run_cons_of_some opened, run_append_of_some collected,
    List.nil_append, run_cons_of_some closed, run_nil]

/-- A character that stands for itself in a value between double quotes. -/
def IsPlain (c : Char) : Prop :=
  isChar c = true ∧ c ≠ '"' ∧ c ≠ '<' ∧ c ≠ '&' ∧ (isWhite c = true → c = ' ')

instance (c : Char) : Decidable (IsPlain c) := by
  unfold IsPlain
  infer_instance

theorem step_value_plain (state : State) (tag : XmlElement) (name text : List Char)
    {c : Char} (plain : IsPlain c) :
    step (state.become (.value tag name '"' text)) c =
      some (state.become (.value tag name '"' (text ++ [c]))) := by
  rcases plain with ⟨valid, noQuote, noTag, noReference, white⟩
  by_cases isSpace : isWhite c = true
  · rw [white isSpace]
    rfl
  · simp [step, valid, noQuote, noTag, noReference, isSpace]

end IioEmu.Xml
