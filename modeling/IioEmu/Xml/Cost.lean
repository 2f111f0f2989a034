import Mathlib.Algebra.GroupWithZero.Nat
import IioEmu.Xml.Markup

/-! # What a tree costs

An element takes its name, its attributes and two more characters at least. A character pays
for one of these wherever it stands, and an end tag pays for nothing, so a document holds no
more than was written. -/

namespace IioEmu.Xml

/-! ## The cost of a tree -/

def propertyCost (property : XmlAttribute) : Nat :=
  property.name.length + property.value.length + 4

def tagCost (tag : XmlElement) : Nat :=
  tag.name.length + 1 + (tag.properties.map propertyCost).sum

/-- Text is free. -/
def elementCost (element : XmlElement) : Nat :=
  if element.name = "text" then 0 else tagCost element + 1

def cost (tree : XmlNode) : Nat := (tree.labels.map elementCost).sum

def forestCost (forest : List XmlNode) : Nat :=
  ((LabelledTree.forestLabels forest).map elementCost).sum

@[simp] theorem cost_node (element : XmlElement) (children : List XmlNode) :
    cost (.node element children) = elementCost element + forestCost children := by
  rw [cost, LabelledTree.labels, List.map_cons, List.sum_cons, forestCost]

@[simp] theorem forestCost_nil : forestCost [] = 0 := rfl

@[simp] theorem forestCost_append (first second : List XmlNode) :
    forestCost (first ++ second) = forestCost first + forestCost second := by
  simp [forestCost, LabelledTree.forestLabels_eq_flatMap]

@[simp] theorem forestCost_singleton (tree : XmlNode) : forestCost
    [tree] = cost tree := by
  simp [forestCost, cost, LabelledTree.forestLabels]

@[simp] theorem cost_textNode (text : List Char) : cost (textNode text) = 0 := rfl

theorem elementCost_le (element : XmlElement) :
    elementCost element ≤ tagCost element + 1 := by
  rw [elementCost]
  split <;> omega

theorem tagCost_emptyElement (name : List Char) :
    tagCost (emptyElement name) = name.length + 1 := by
  simp [tagCost, emptyElement]

theorem tagCost_withProperty (tag : XmlElement) (name text : List Char) :
    tagCost (withProperty tag name text) =
    tagCost tag + (name.length + text.length + 4) := by
  simp [tagCost, withProperty, propertyCost, Nat.add_assoc]

/-! ## What a state is worth -/

def framesCost (frames : List Frame) : Nat :=
  (frames.map fun frame => elementCost frame.element + forestCost frame.children).sum

def modeCost : Mode → Nat
  | .markup => 1
  | .startName name => name.length + 1
  | .inTag tag => tagCost tag + 1
  | .attributeName tag name | .afterName tag name => tagCost tag + 1 + name.length
  | .beforeValue tag name => tagCost tag + 2 + name.length
  | .value tag name _ text | .valueReference tag name _ text _ =>
      tagCost tag + 3 + name.length + text.length
  | .afterValue tag | .slash tag => tagCost tag
  | _ => 0

namespace State

def settledCost (state : State) : Nat := framesCost state.frames + state.root.elim 0 cost

def cost (state : State) : Nat := state.settledCost + modeCost state.mode

@[simp] theorem settledCost_become (state : State) (mode : Mode) :
    (state.become mode).settledCost = state.settledCost := rfl

@[simp] theorem cost_become (state : State) (mode : Mode) :
    (state.become mode).cost = state.settledCost + modeCost mode := rfl

theorem settledCost_addNode_le (state : State) (node : XmlNode) :
    (state.addNode node).settledCost ≤ state.settledCost + Xml.cost node := by
  rcases state with ⟨frames, root, mode⟩
  cases frames with
  | nil => simp [addNode, settledCost, framesCost]
  | cons frame frames =>
      simp [addNode, settledCost, framesCost]
      omega

theorem settledCost_flush_le (state : State) (text : List Char) :
    (state.flush text).settledCost ≤ state.settledCost := by
  rw [flush]
  split
  · exact Nat.le_refl _
  · exact state.settledCost_addNode_le (textNode text)

@[simp] theorem cost_resume (state : State) : state.resume.cost = state.settledCost := by
  rw [resume, cost_become]
  split <;> rfl

theorem cost_openElement (state : State) (tag : XmlElement) :
    (state.openElement tag).cost = state.settledCost + elementCost tag := by
  simp [openElement, cost, settledCost, framesCost, modeCost]
  omega

end State

/-! ## One character -/

def Idle : Mode → Prop
  | .misc | .content _ | .contentReference _ _ | .comment _ | .cdata _ | .instruction _
  | .doctype _ _ | .endName _ | .afterEndName _ => True
  | _ => False

theorem modeCost_idle {mode : Mode} (idle : Idle mode) : modeCost mode = 0 := by
  cases mode <;> first | rfl | exact idle.elim

theorem idle_resume (state : State) : Idle state.resume.mode := by
  rw [State.resume]
  change Idle (if state.frames.isEmpty then .misc else .content [])
  split <;> trivial

def Rests (state next : State) : Prop := Idle next.mode ∧ next.cost ≤ state.settledCost

theorem rests_become (state : State) {mode : Mode} (idle : Idle mode) :
    Rests state (state.become mode) := by
  refine ⟨idle, ?_⟩
  rw [State.cost_become, modeCost_idle idle]
  exact Nat.le_refl _

theorem rests_resume (state : State) : Rests state state.resume :=
  ⟨idle_resume state, Nat.le_of_eq state.cost_resume⟩

theorem rests_closeElement {state next : State} {name : List Char}
    (closed : state.closeElement name = some next) : Rests state next := by
  rcases closeElement_cases closed with ⟨frame, frames, nested, rfl⟩
  have added := State.settledCost_addNode_le { state with frames := frames }
    (.node frame.element frame.children)
  refine ⟨idle_resume _, ?_⟩
  rw [State.cost_resume]
  simp only [State.settledCost, nested, framesCost, cost_node, List.map_cons,
    List.sum_cons] at added ⊢
  omega

theorem rests_of_become {state next : State} {mode : Mode}
    (stepped : some (state.become mode) = some next) (idle : Idle mode) :
    Rests state next := by
  cases stepped
  exact rests_become state idle

theorem step_idle {state next : State} {c : Char} (idle : Idle state.mode)
    (stepped : step state c = some next) :
    Rests state next ∨ c = '<' ∧ next.mode = .markup ∧
    next.cost ≤ state.settledCost + 1 := by
  rcases state with ⟨frames, root, mode⟩
  simp only [step, Option.ite_none_left_eq_some] at stepped
  replace stepped := stepped.2
  cases mode with
  | misc =>
      simp only at stepped
      split at stepped
      · exact Or.inl (@rests_of_become _ _ .misc stepped trivial)
      · simp only [Option.ite_none_right_eq_some, Option.some.injEq] at stepped
        rw [← stepped.2]
        exact Or.inr ⟨stepped.1, rfl, Nat.le_refl _⟩
  | content text =>
      simp only at stepped
      split at stepped
      case isTrue tag =>
        cases stepped
        exact Or.inr ⟨tag, rfl, Nat.succ_le_succ (State.settledCost_flush_le _ text)⟩
      case isFalse =>
        split at stepped
        · exact Or.inl (rests_of_become stepped trivial)
        · simp only [Option.ite_none_left_eq_some] at stepped
          exact Or.inl (rests_of_become stepped.2 trivial)
  | contentReference text reference =>
      simp only at stepped
      split at stepped
      · rw [Option.map_eq_some_iff] at stepped
        rcases stepped with ⟨char, _, rfl⟩
        exact Or.inl (rests_become _ trivial)
      · simp only [Option.ite_none_right_eq_some] at stepped
        exact Or.inl (rests_of_become stepped.2 trivial)
  | comment dashes =>
      simp only at stepped
      split at stepped
      · cases stepped
        exact Or.inl (rests_resume _)
      · simp only [Option.ite_none_left_eq_some] at stepped
        exact Or.inl (rests_of_become stepped.2 trivial)
  | cdata text =>
      simp only at stepped
      split at stepped
      · cases stepped
        refine Or.inl ⟨trivial, ?_⟩
        rw [State.cost_become]
        exact State.settledCost_flush_le _ _
      · exact Or.inl (rests_of_become stepped trivial)
  | instruction question =>
      simp only at stepped
      split at stepped
      · cases stepped
        exact Or.inl (rests_resume _)
      · exact Or.inl (rests_of_become stepped trivial)
  | doctype depth quote =>
      simp only [Option.some.injEq] at stepped
      rw [← stepped]
      rcases stepDoctype_cases ⟨frames, root, .doctype depth quote⟩ depth quote c with
        equal | ⟨inner, delimiter, equal⟩
      · rw [equal]
        exact Or.inl (rests_become _ trivial)
      · rw [equal]
        exact Or.inl (rests_become _ trivial)
  | endName name =>
      simp only at stepped
      split at stepped
      · exact Or.inl (rests_of_become stepped trivial)
      split at stepped
      · exact Or.inl (rests_of_become stepped trivial)
      · simp only [Option.ite_none_right_eq_some] at stepped
        exact Or.inl (rests_closeElement stepped.2)
  | afterEndName name =>
      simp only at stepped
      split at stepped
      · exact Or.inl (@rests_of_become _ _ (.afterEndName name) stepped trivial)
      · simp only [Option.ite_none_right_eq_some] at stepped
        exact Or.inl (rests_closeElement stepped.2)
  | _ => exact idle.elim

theorem rests_of_ne {state next : State} {c : Char}
    (idle : Idle state.mode) (noTag : c ≠ '<') (stepped : step state c = some next) :
    Rests state next := by
  rcases step_idle idle stepped with rests | ⟨tag, _⟩
  · exact rests
  · exact absurd tag noTag

def Quoted : Mode → Prop
  | .value _ _ quote _ | .valueReference _ _ quote _ _ => quote = '"' ∨ quote = '\''
  | _ => True

theorem quoted_of_idle {mode : Mode} (idle : Idle mode) : Quoted mode := by
  cases mode <;> trivial

theorem stepDeclaration_refused (state : State) (seen : List Char) {c : Char}
    (absent : c ∉ ['-', '[', 'C', 'D', 'A', 'T', 'O', 'Y', 'P', 'E']) :
    stepDeclaration state (seen ++ [c]) = none := by
  simp only [List.mem_cons, List.not_mem_nil, or_false, not_or] at absent
  have differs {text : List Char} (absent : c ∉ text) : seen ++ [c] ≠ text := by
    rintro rfl
    exact absent (by simp)
  have noPrefix {text : List Char} (absent : c ∉ text) :
      (seen ++ [c]).isPrefixOf text = false := by
    rw [Bool.eq_false_iff, ne_eq, List.isPrefixOf_iff_prefix]
    intro isPrefix
    exact absent (isPrefix.subset (by simp))
  have comment : c ∉ ['-', '-'] := by simp [absent]
  have cdata : c ∉ ['[', 'C', 'D', 'A', 'T', 'A', '['] := by simp [absent]
  have doctype : c ∉ ['D', 'O', 'C', 'T', 'Y', 'P', 'E'] := by simp [absent]
  simp [stepDeclaration, differs comment, differs cdata,
    differs doctype, noPrefix comment, noPrefix cdata, noPrefix doctype]

theorem idle_of_tag {state next : State} (quoted : Quoted state.mode)
    (stepped : step state '<' = some next) : Idle state.mode := by
  have valid : isChar '<' = true := by decide
  have notNamed : isNameChar '<' = false := by decide
  have notStart : isNameStart '<' = false := by decide
  have notWhite : isWhite '<' = false := by decide
  rcases state with ⟨frames, root, mode⟩
  cases mode with
  | declaration seen =>
      simp [step, valid, stepDeclaration_refused ⟨frames, root, .declaration seen⟩ seen
        (show '<' ∉ _ by decide)] at stepped
  | value tag name quote text =>
      rcases quoted with rfl | rfl <;> simp [step, valid] at stepped
  | misc | content | contentReference | comment | cdata | instruction | doctype | endName
  | afterEndName => trivial
  | _ => simp [step, valid, notNamed, notStart, notWhite, stepTag] at stepped

def Within (next : State) (worth : Nat) : Prop := Quoted next.mode ∧ next.cost ≤ worth

theorem Rests.within {state next : State} (rests : Rests state next) {worth : Nat}
    (enough : state.settledCost ≤ worth) : Within next worth :=
  ⟨quoted_of_idle rests.1, Nat.le_trans rests.2 enough⟩

theorem within_become {state next : State} {mode : Mode}
    (stepped : some (state.become mode) = some next) (quoted : Quoted mode)
    (enough : modeCost mode ≤ modeCost state.mode + 1) :
    Within next (state.cost + 1) := by
  cases stepped
  exact ⟨quoted, Nat.add_le_add_left enough _⟩

theorem within_stepTag {state next : State} {tag : XmlElement} {c : Char}
    (stepped : stepTag state tag c = some next)
    (enough : tagCost tag ≤ modeCost state.mode) :
    Within next (state.cost + 1) := by
  rcases stepTag_cases stepped with rfl | rfl | rfl
  · exact within_become rfl trivial (Nat.succ_le_succ enough)
  · exact within_become rfl trivial (Nat.le_succ_of_le enough)
  · have price := elementCost_le tag
    refine ⟨trivial, ?_⟩
    rw [State.cost_openElement, State.cost]
    omega

theorem within_addNode (state : State) (tag : XmlElement) :
    Within (state.addNode (.node tag [])).resume
      (state.settledCost + tagCost tag + 1) := by
  have added := state.settledCost_addNode_le (.node tag [])
  have price := elementCost_le tag
  refine ⟨quoted_of_idle (idle_resume _), ?_⟩
  rw [State.cost_resume]
  simp only [cost_node, forestCost_nil] at added
  omega

theorem within_step {state next : State} {c : Char} (quoted : Quoted state.mode)
    (stepped : step state c = some next) : Within next (state.cost + 1) := by
  by_cases idle : Idle state.mode
  · have settled : state.settledCost ≤ state.cost := Nat.le_add_right _ _
    rcases step_idle idle stepped with rests | ⟨_, isMarkup, gained⟩
    · exact rests.within (by omega)
    · refine ⟨?_, by omega⟩
      rw [isMarkup]
      trivial
  rcases state with ⟨frames, root, mode⟩
  simp only [step, Option.ite_none_left_eq_some] at stepped
  replace stepped := stepped.2
  cases mode with
  | markup =>
      simp only at stepped
      repeat' split at stepped
      all_goals first
        | exact within_become stepped trivial (by simp [modeCost])
        | cases stepped
  | declaration seen =>
      rcases stepDeclaration_cases stepped with rfl | rfl | ⟨_, rfl⟩ | ⟨_, rfl⟩
      · exact within_become rfl trivial (Nat.zero_le _)
      · exact within_become rfl trivial (Nat.zero_le _)
      · exact within_become rfl trivial (Nat.zero_le _)
      · exact within_become rfl trivial (Nat.zero_le _)
  | startName name =>
      simp only at stepped
      split at stepped
      · exact within_become stepped trivial (by simp [modeCost])
      · exact within_stepTag stepped (Nat.le_of_eq (tagCost_emptyElement name))
  | inTag tag =>
      simp only at stepped
      split at stepped
      · exact within_become stepped trivial (Nat.le_refl _)
      · exact within_stepTag stepped (Nat.le_succ _)
  | attributeName tag name =>
      simp only at stepped
      split at stepped
      · apply within_become stepped trivial
        simp [modeCost]
        omega
      split at stepped
      · apply within_become stepped trivial
        simp only [modeCost]
        omega
      · simp only [Option.ite_none_right_eq_some] at stepped
        exact within_become stepped.2 trivial (Nat.le_succ _)
  | afterName tag name =>
      simp only at stepped
      split at stepped
      · apply within_become stepped trivial
        simp only [modeCost]
        omega
      · simp only [Option.ite_none_right_eq_some] at stepped
        exact @within_become _ _ (.afterName tag name) stepped.2 trivial (Nat.le_succ _)
  | beforeValue tag name =>
      simp only at stepped
      split at stepped
      case isTrue quote =>
        simp only [Bool.or_eq_true, decide_eq_true_eq] at quote
        apply within_become stepped quote
        simp [modeCost]
        omega
      case isFalse =>
        simp only [Option.ite_none_right_eq_some] at stepped
        exact @within_become _ _ (.beforeValue tag name) stepped.2 trivial (Nat.le_succ _)
  | value tag name quote text =>
      simp only at stepped
      split at stepped
      · simp only [State.endValue, Option.ite_none_left_eq_some] at stepped
        apply within_become stepped.2 trivial
        simp only [modeCost, tagCost_withProperty]
        omega
      split at stepped
      · cases stepped
      split at stepped
      · exact within_become stepped quoted (Nat.le_succ _)
      · apply within_become stepped quoted
        simp [modeCost]
        omega
  | valueReference tag name quote text reference =>
      simp only at stepped
      split at stepped
      · rw [Option.map_eq_some_iff] at stepped
        rcases stepped with ⟨char, _, become⟩
        apply within_become (congrArg some become) quoted
        simp [modeCost]
        omega
      · simp only [Option.ite_none_right_eq_some] at stepped
        exact within_become stepped.2 quoted (Nat.le_succ _)
  | afterValue tag => exact within_stepTag stepped (Nat.le_refl _)
  | slash tag =>
      simp only [Option.ite_none_right_eq_some, Option.some.injEq] at stepped
      rw [← stepped.2]
      exact within_addNode _ tag
  | _ => exact absurd trivial idle

/-! ## Pieces of text -/

/-- Wherever the text stands, it is worth so much at most. -/
def Spends (text : List Char) (worth : Nat) : Prop :=
  ∀ state next : State, Quoted state.mode → run state text = some next →
    Within next (state.cost + worth)

theorem Spends.append {first second : List Char} {worth more : Nat}
    (spends : Spends first worth) (next : Spends second more) :
    Spends (first ++ second) (worth + more) := by
  intro state final quoted ran
  rw [run_append, Option.bind_eq_some_iff] at ran
  rcases ran with ⟨middle, before, after⟩
  have reached := spends state middle quoted before
  have ended := next middle final reached.1 after
  have enough := reached.2
  exact ⟨ended.1, Nat.le_trans ended.2 (by omega)⟩

theorem spends_length (text : List Char) : Spends text text.length := by
  induction text with
  | nil =>
      intro state next quoted ran
      cases ran
      exact ⟨quoted, Nat.le_refl _⟩
  | cons c text induction =>
      intro state final quoted ran
      rw [run_cons, Option.bind_eq_some_iff] at ran
      rcases ran with ⟨next, stepped, rest⟩
      have reached := within_step quoted stepped
      have ended := induction next final reached.1 rest
      have enough := reached.2
      exact ⟨ended.1, Nat.le_trans ended.2 (by rw [List.length_cons]; omega)⟩

theorem spends_flatMap {text : List Char} {escape : Char → List Char}
    (each : ∀ c ∈ text, Spends (escape c) 1) :
    Spends (text.flatMap escape) text.length := by
  induction text with
  | nil => exact spends_length []
  | cons c text induction =>
      have rest := induction fun other member => each other (by simp [member])
      rw [List.length_cons, Nat.add_comm]
      exact (each c (by simp)).append rest

theorem rests_run {state next : State} {text : List Char} (idle : Idle state.mode)
    (noTag : '<' ∉ text) (ran : run state text = some next) :
    Idle next.mode ∧ next.cost ≤ state.cost := by
  induction text generalizing state with
  | nil =>
      cases ran
      exact ⟨idle, Nat.le_refl _⟩
  | cons c text induction =>
      rw [List.mem_cons, not_or] at noTag
      rw [run_cons, Option.bind_eq_some_iff] at ran
      rcases ran with ⟨middle, stepped, rest⟩
      have rests := rests_of_ne idle (Ne.symm noTag.1) stepped
      have ended := induction rests.1 noTag.2 rest
      have settled : state.settledCost ≤ state.cost := Nat.le_add_right _ _
      exact ⟨ended.1, Nat.le_trans ended.2 (Nat.le_trans rests.2 settled)⟩

theorem spends_endTag {name : List Char} (noTag : '<' ∉ name) :
    Spends ('<' :: '/' :: name ++ ['>']) 0 := by
  intro state final quoted ran
  rw [List.cons_append, run_cons, Option.bind_eq_some_iff] at ran
  rcases ran with ⟨opened, stepped, ran⟩
  have settled : state.settledCost ≤ state.cost := Nat.le_add_right _ _
  have free : '<' ∉ '/' :: name ++ ['>'] := by simp [noTag]
  rcases step_idle (idle_of_tag quoted stepped) stepped with rests | ⟨_, isMarkup, gained⟩
  · have ended := rests_run rests.1 free ran
    exact ⟨quoted_of_idle ended.1, Nat.le_trans ended.2 (Nat.le_trans rests.2 settled)⟩
  · rw [List.cons_append, run_cons, Option.bind_eq_some_iff] at ran
    rcases ran with ⟨ending, stepped, ran⟩
    have named : ending = opened.become (.endName []) := by
      rcases opened with ⟨frames, root, mode⟩
      cases isMarkup
      have notStart : isNameStart '/' = false := by decide
      simp only [step, notStart, Option.ite_none_left_eq_some] at stepped
      replace stepped := stepped.2
      split at stepped
      · cases stepped
        rfl
      · simp at stepped
    have bare : opened.cost = opened.settledCost + 1 := by
      rw [State.cost, isMarkup, modeCost]
    have idle : Idle ending.mode := by
      rw [named]
      trivial
    have worth : ending.cost = opened.settledCost := by
      rw [named]
      rfl
    have ended := rests_run idle (by simp [noTag]) ran
    exact ⟨quoted_of_idle ended.1, by omega⟩

theorem value_of_reference {state next : State} (quoted : Quoted state.mode)
    (busy : ¬ Idle state.mode) (stepped : step state '&' = some next) :
    ∃ tag name quote text, state.mode = .value tag name quote text ∧
      next = state.become (.valueReference tag name quote text []) := by
  have valid : isChar '&' = true := by decide
  have notNamed : isNameChar '&' = false := by decide
  have notStart : isNameStart '&' = false := by decide
  have notWhite : isWhite '&' = false := by decide
  rcases state with ⟨frames, root, mode⟩
  cases mode with
  | declaration seen =>
      simp [step, valid, stepDeclaration_refused ⟨frames, root, .declaration seen⟩ seen
        (show '&' ∉ _ by decide)] at stepped
  | value tag name quote text =>
      refine ⟨tag, name, quote, text, rfl, ?_⟩
      rcases quoted with rfl | rfl <;> simpa [step, valid, eq_comm] using stepped
  | misc | content | contentReference | comment | cdata | instruction | doctype | endName
  | afterEndName => exact absurd trivial busy
  | _ => simp [step, valid, notNamed, notStart, notWhite, stepTag] at stepped

theorem spends_reference (reference : List Char)
    (inside : ∀ c ∈ reference, (isNameChar c || c == '#') = true) :
    Spends ('&' :: reference ++ [';']) 1 := by
  intro state final quoted ran
  have noTag : '<' ∉ reference := by
    intro member
    exact absurd (inside '<' member) (by decide)
  rw [List.cons_append, run_cons, Option.bind_eq_some_iff] at ran
  rcases ran with ⟨opened, stepped, ran⟩
  by_cases idle : Idle state.mode
  · have rests := rests_of_ne idle (by decide) stepped
    have ended := rests_run rests.1 (by simp [noTag]) ran
    have settled : state.settledCost ≤ state.cost := Nat.le_add_right _ _
    exact ⟨quoted_of_idle ended.1,
      Nat.le_trans ended.2 (Nat.le_trans rests.2 (Nat.le_succ_of_le settled))⟩
  · rcases value_of_reference quoted idle stepped with
    ⟨tag, name, quote, text, inValue, rfl⟩
    have collected := run_collect state (.valueReference tag name quote text) reference
      (by
        intro c member read
        have allowed := inside c member
        have valid := isChar_of_reference allowed
        have notEnd := ne_end_of_reference allowed
        simp only [Bool.or_eq_true, beq_iff_eq] at allowed
        simp [step, valid, notEnd, allowed]) []
    have valid : isChar ';' = true := by decide
    rw [run_append_of_some collected, run_cons, Option.bind_eq_some_iff] at ran
    rcases ran with ⟨ended, stepped, ran⟩
    cases ran
    simp only [step, valid, Bool.not_true, Bool.false_eq_true,
      if_false, State.mode_become, if_true, Option.map_eq_some_iff] at stepped
    rcases stepped with ⟨char, _, rfl⟩
    rw [inValue] at quoted
    refine ⟨quoted, ?_⟩
    rw [State.become_become, State.cost_become, State.cost, inValue]
    simp [modeCost]
    omega

/-! ## The ends of start tags -/

def Costs (text : List Char) (worth : Nat) : Prop :=
  ∀ state next after : State, Quoted state.mode → run state text = some next →
    step next '<' = some after → Within next (state.cost + worth)

theorem Spends.costs {text : List Char} {worth : Nat} (spends : Spends text worth) :
    Costs text worth := fun state next _ quoted ran _ => spends state next quoted ran

theorem Spends.andThen {first second : List Char} {worth more : Nat}
    (spends : Spends first worth) (next : Costs second more) :
    Costs (first ++ second) (worth + more) := by
  intro state final after quoted ran opened
  rw [run_append, Option.bind_eq_some_iff] at ran
  rcases ran with ⟨middle, before, rest⟩
  have reached := spends state middle quoted before
  have ended := next middle final after reached.1 rest opened
  have enough := reached.2
  exact ⟨ended.1, Nat.le_trans ended.2 (by omega)⟩

theorem Costs.append {first second : List Char} {worth more : Nat}
    (costs : Costs first worth) (next : Costs ('<' :: second) more) :
    Costs (first ++ '<' :: second) (worth + more) := by
  intro state final after quoted ran opened
  rw [run_append, Option.bind_eq_some_iff] at ran
  rcases ran with ⟨middle, before, rest⟩
  rcases Option.bind_eq_some_iff.mp ((run_cons middle '<' second).symm.trans rest) with
    ⟨tag, stepped, _⟩
  have reached := costs state middle tag quoted before stepped
  have ended := next middle final after reached.1 rest opened
  have enough := reached.2
  exact ⟨ended.1, Nat.le_trans ended.2 (by omega)⟩

def Unfinished : Mode → Prop
  | .afterName _ _ | .beforeValue _ _ => True
  | .value _ _ quote _ => quote = '"' ∨ quote = '\''
  | _ => False

theorem step_unfinished {state next : State} {c : Char}
    (unfinished : Unfinished state.mode) (ends : c = '/' ∨ c = '>')
    (stepped : step state c = some next) : Unfinished next.mode := by
  rcases state with ⟨frames, root, mode⟩
  cases mode with
  | afterName tag name =>
      rcases ends with rfl | rfl <;> simp [step, isChar, isWhite] at stepped
  | beforeValue tag name =>
      rcases ends with rfl | rfl <;> simp [step, isChar, isWhite] at stepped
  | value tag name quote text =>
      have isQuote : quote = '"' ∨ quote = '\'' := unfinished
      rcases unfinished with rfl | rfl <;> rcases ends with rfl | rfl <;>
        (simp [step, isChar] at stepped
         rw [← stepped]
         exact isQuote)
  | _ => exact unfinished.elim

theorem unfinished_tag {state next : State} (unfinished : Unfinished state.mode)
    (stepped : step state '<' = some next) : False := by
  rcases state with ⟨frames, root, mode⟩
  cases mode with
  | afterName => exact idle_of_tag (by trivial) stepped
  | beforeValue => exact idle_of_tag (by trivial) stepped
  | value => exact idle_of_tag (by exact unfinished) stepped
  | _ => exact unfinished

theorem step_space {state next : State} (quoted : Quoted state.mode)
    (stepped : step state ' ' = some next) :
    Rests state next ∨ Unfinished next.mode ∨
      ∃ tag, next = state.become (.inTag tag) ∧ tagCost tag ≤ modeCost state.mode := by
  by_cases idle : Idle state.mode
  · exact Or.inl (rests_of_ne idle (by decide) stepped)
  apply Or.inr
  have valid : isChar ' ' = true := by decide
  have notNamed : isNameChar ' ' = false := by decide
  have notStart : isNameStart ' ' = false := by decide
  have white : isWhite ' ' = true := by decide
  rcases state with ⟨frames, root, mode⟩
  cases mode with
  | declaration seen =>
      simp [step, valid, stepDeclaration_refused ⟨frames, root, .declaration seen⟩ seen
        (show ' ' ∉ _ by decide)] at stepped
  | startName name =>
      simp [step, valid, notNamed, stepTag, white] at stepped
      exact Or.inr ⟨_, stepped.symm, Nat.le_of_eq (tagCost_emptyElement name)⟩
  | inTag tag =>
      simp [step, valid, notStart, stepTag, white] at stepped
      exact Or.inr ⟨_, stepped.symm, Nat.le_succ _⟩
  | afterValue tag =>
      simp [step, valid, stepTag, white] at stepped
      exact Or.inr ⟨_, stepped.symm, Nat.le_refl _⟩
  | attributeName tag name =>
      simp [step, valid, notNamed, white] at stepped
      rw [← stepped]
      exact Or.inl trivial
  | afterName tag name =>
      simp [step, valid, white] at stepped
      rw [← stepped]
      exact Or.inl trivial
  | beforeValue tag name =>
      simp [step, valid, white] at stepped
      rw [← stepped]
      exact Or.inl trivial
  | value tag name quote text =>
      have isQuote : quote = '"' ∨ quote = '\'' := quoted
      rcases quoted with rfl | rfl <;>
        (simp [step, valid] at stepped
         rw [← stepped]
         exact Or.inl isQuote)
  | markup | valueReference | slash => simp [step, valid, notNamed, notStart] at stepped
  | _ => exact absurd trivial idle

theorem costs_ending {ending : List Char} (ends : ending = ['>'] ∨ ending = ['/', '>']) :
    Costs (' ' :: ending) 1 := by
  intro state final after quoted ran opened
  rw [run_cons, Option.bind_eq_some_iff] at ran
  rcases ran with ⟨next, stepped, ran⟩
  have settled : state.settledCost ≤ state.cost := Nat.le_add_right _ _
  rcases step_space quoted stepped with rests | unfinished | ⟨tag, rfl, enough⟩
  · have noTag : '<' ∉ ending := by
      rcases ends with rfl | rfl <;> decide
    have ended := rests_run rests.1 noTag ran
    exact ⟨quoted_of_idle ended.1,
      Nat.le_trans ended.2 (Nat.le_trans rests.2 (Nat.le_succ_of_le settled))⟩
  · have inEnding : ∀ c ∈ ending, c = '/' ∨ c = '>' := by
      rcases ends with rfl | rfl <;> decide
    have stays : Unfinished final.mode := by
      clear stepped ends
      induction ending generalizing next with
      | nil =>
          cases ran
          exact unfinished
      | cons c ending induction =>
          rw [run_cons, Option.bind_eq_some_iff] at ran
          rcases ran with ⟨middle, stepped, rest⟩
          exact induction middle rest
            (step_unfinished unfinished (inEnding c (by simp)) stepped)
            fun other member => inEnding other (by simp [member])
    exact (unfinished_tag stays opened).elim
  · have price : State.cost state = state.settledCost + modeCost state.mode := rfl
    rcases ends with rfl | rfl
    · have opens :
          run (state.become (.inTag tag)) ['>'] = some (state.openElement tag) := rfl
      rw [opens, Option.some.injEq] at ran
      have gained := elementCost_le tag
      rw [← ran]
      refine ⟨trivial, ?_⟩
      rw [State.cost_openElement]
      omega
    · have closes : run (state.become (.inTag tag)) ['/', '>'] =
          some ((state.become (.slash tag)).addNode (.node tag [])).resume := rfl
      rw [closes, Option.some.injEq] at ran
      have gained := within_addNode (state.become (.slash tag)) tag
      rw [← ran]
      refine ⟨gained.1, Nat.le_trans gained.2 ?_⟩
      rw [State.settledCost_become]
      omega

/-! ## Elements and content -/

/-- The text is worth no more than the elements it is written for. -/
structure Pays (text : List Char) (nodes : List XmlNode) : Prop where
  tagged : text = [] ∨ ∃ rest, text = '<' :: rest
  costs : Costs text (forestCost nodes)

theorem pays_nil : Pays [] [] where
  tagged := Or.inl rfl
  costs := (spends_length []).costs

theorem Pays.append {first second : List Char} {nodes others : List XmlNode}
    (pays : Pays first nodes) (next : Pays second others) :
    Pays (first ++ second) (nodes ++ others) where
  tagged := by
    rcases pays.tagged with rfl | ⟨rest, rfl⟩
    · exact next.tagged
    · exact Or.inr ⟨_, rfl⟩
  costs := by
    rw [forestCost_append]
    rcases next.tagged with rfl | ⟨rest, rfl⟩
    · intro state final after quoted ran opened
      rw [List.append_nil] at ran
      have reached := pays.costs state final after quoted ran opened
      exact ⟨reached.1, Nat.le_trans reached.2 (by omega)⟩
    · exact pays.costs.append next.costs

def Spelling.Fair (spelling : Spelling) : Prop :=
  Spends spelling.literal spelling.property.value.length

theorem spends_spelling {spelling : Spelling} (fair : spelling.Fair) :
    Spends spelling.text (propertyCost spelling.property) := by
  have parts : spelling.text = (' ' :: spelling.property.name.toList ++ ['=', '"']) ++
      (spelling.literal ++ ['"']) := by
    simp [Spelling.text]
  have spends :=
    (spends_length (' ' :: spelling.property.name.toList ++ ['=', '"'])).append
    (fair.append (spends_length ['"']))
  have worth : (' ' :: spelling.property.name.toList ++ ['=', '"']).length +
      (spelling.property.value.length + ['"'].length) =
      propertyCost spelling.property := by
    simp [propertyCost, String.length_toList]
    omega
  rwa [worth, ← parts] at spends

theorem spends_spellings {spellings : List Spelling}
    (fair : ∀ spelling ∈ spellings, spelling.Fair) :
    Spends (spellings.flatMap Spelling.text)
      ((spellings.map Spelling.property).map propertyCost).sum := by
  induction spellings with
  | nil => exact spends_length []
  | cons spelling spellings induction =>
      have rest := induction fun other member => fair other (by simp [member])
      exact (spends_spelling (fair spelling (by simp))).append rest

section Elements

variable {tag : Tag} (named : tag.name ≠ "text")
  (fair : ∀ spelling ∈ tag.spellings, spelling.Fair)

include fair

theorem spends_tag : Spends ('<' :: tag.text) (tagCost tag.element) := by
  have spends := (spends_length ('<' :: tag.name.toList)).append (spends_spellings fair)
  have worth : ('<' :: tag.name.toList).length = tag.name.length + 1 := by
    simp [String.length_toList]
  rw [worth] at spends
  exact spends

include named

theorem pays_empty : Pays ('<' :: (tag.text ++ [' '] ++ ['/', '>']))
    [.node tag.element []] where
  tagged := Or.inr ⟨_, rfl⟩
  costs := by
    have costs := (spends_tag fair).andThen (costs_ending (Or.inr rfl))
    have price : elementCost tag.element = tagCost tag.element + 1 := if_neg named
    have worth : forestCost [.node tag.element []] = tagCost tag.element + 1 := by
      rw [forestCost_singleton, cost_node, forestCost_nil, price]
    rw [worth]
    simpa using costs

theorem pays_content {text : List Char} {nodes : List XmlNode}
    (noTag : '<' ∉ tag.name.toList) (content : Pays text nodes) :
    Pays ('<' :: (tag.text ++ [' '] ++ '>' :: text ++ '<' :: '/' :: tag.name.toList ++ ['>']))
      [.node tag.element nodes] where
  tagged := Or.inr ⟨_, rfl⟩
  costs := by
    have ending : Pays ('<' :: '/' :: tag.name.toList ++ ['>']) [] :=
      ⟨Or.inr ⟨_, rfl⟩, (spends_endTag noTag).costs⟩
    have inner := content.append ending
    have opened := (spends_tag fair).andThen (costs_ending (Or.inl rfl))
    have price : elementCost tag.element = tagCost tag.element + 1 := if_neg named
    have worth : forestCost [.node tag.element nodes] =
        tagCost tag.element + 1 + forestCost (nodes ++ []) := by
      rw [forestCost_singleton, cost_node, price, List.append_nil]
    rw [worth]
    rcases inner.tagged with empty | ⟨rest, begins⟩
    · simp at empty
    · have costs := inner.costs
      rw [begins] at costs
      have whole := opened.append costs
      rw [← begins] at whole
      simpa using whole

end Elements

/-- A document holds no more than it was written for. -/
theorem cost_le_of_parse {prolog text : List Char} {tree other : XmlNode}
    (isProlog : IsProlog prolog) (free : '\r' ∉ prolog ++ '<' :: text)
    (pays : Pays ('<' :: text) [tree])
    (parsed : parse (prolog ++ '<' :: text) = some other) : cost other ≤ cost tree := by
  rw [parse, normalizeLineEnds_of_free free, run_append_of_some isProlog,
    Option.bind_eq_some_iff] at parsed
  rcases parsed with ⟨final, ran, finished⟩
  rcases final with ⟨frames, root, mode⟩
  cases mode with
  | misc =>
      have opened : step ⟨frames, root, .misc⟩ '<' = some ⟨frames, root, .markup⟩ := rfl
      have within := (pays.costs start _ _ trivial ran opened).2
      rw [forestCost_singleton] at within
      have isRoot : root = some other := finished
      simp only [State.cost, State.settledCost, isRoot, Option.elim_some, modeCost, start,
        framesCost] at within
      simp at within
      omega
  | _ => cases finished

end IioEmu.Xml
