import IioEmu.Xml.Markup

/-! # What has been read stays read

The reader records attributes in the order of the document and takes none of them back. Once
the value of an attribute is complete, it is in the tree that comes out, at the place the
order gives it. -/

namespace IioEmu.Xml

def forestProperties (forest : List XmlNode) : List XmlAttribute :=
  (LabelledTree.forestLabels forest).flatMap XmlElement.properties

def properties (tree : XmlNode) : List XmlAttribute :=
  tree.labels.flatMap XmlElement.properties

@[simp] theorem properties_node (label : XmlElement) (children : List XmlNode) :
    properties (.node label children) = label.properties ++
    forestProperties children := by
  rw [properties, LabelledTree.labels, List.flatMap_cons, forestProperties]

@[simp] theorem forestProperties_nil : forestProperties [] = [] := rfl

theorem forestProperties_append (first second : List XmlNode) :
    forestProperties (first ++ second) = forestProperties first ++
    forestProperties second := by
  simp only [forestProperties, LabelledTree.forestLabels_eq_flatMap, List.flatMap_append]

@[simp] theorem forestProperties_singleton (tree : XmlNode) :
    forestProperties [tree] = properties tree := by
  simp [forestProperties, properties, LabelledTree.forestLabels]

theorem forestProperties_cons (tree : XmlNode) (forest : List XmlNode) :
    forestProperties (tree :: forest) = properties tree ++ forestProperties forest := by
  rw [← List.singleton_append, forestProperties_append, forestProperties_singleton]

/-! ## In the middle of a document -/

def frameProperties : List Frame → List XmlAttribute
  | [] => []
  | frame :: frames =>
      frameProperties frames ++
      (frame.element.properties ++ forestProperties frame.children)

def tagProperties : Mode → List XmlAttribute
  | .inTag tag | .attributeName tag _ | .afterName tag _ | .beforeValue tag _
  | .value tag _ _ _ | .valueReference tag _ _ _ _ | .afterValue tag | .slash tag =>
      tag.properties
  | _ => []

def Nested : Mode → Prop
  | .content _ | .contentReference _ _ | .cdata _ | .endName _ | .afterEndName _ => True
  | _ => False

def Behind : Mode → Prop
  | .misc | .markup | .declaration _ | .comment _ | .instruction _ => True
  | _ => False

def Outside : Mode → Prop
  | .misc | .markup | .declaration _ | .comment _ | .instruction _ | .doctype _ _ => True
  | _ => False

inductive Recorded (recorded : List XmlAttribute) : State → Prop
  | opened (frames : List Frame) (mode : Mode) (nested : Nested mode → frames ≠ [])
      (begins : recorded <+: frameProperties frames ++ tagProperties mode) :
      Recorded recorded ⟨frames, none, mode⟩
  | closed (tree : XmlNode) (mode : Mode) (behind : Behind mode)
      (begins : recorded <+: properties tree) : Recorded recorded ⟨[], some tree, mode⟩

namespace Recorded

variable {recorded : List XmlAttribute}

theorem addNode {frames : List Frame} {node : XmlNode} (mode : Mode)
    (begins : recorded <+: frameProperties frames ++ properties node) :
    Recorded recorded ((State.mk frames none mode).addNode node).resume := by
  cases frames with
  | nil => exact .closed node .misc trivial (by simpa [frameProperties] using begins)
  | cons frame frames =>
      apply Recorded.opened
        ({ frame with children := frame.children ++ [node] } :: frames)
        (.content [])
      · exact fun _ => List.cons_ne_nil _ _
      · simpa [frameProperties, tagProperties, forestProperties_append] using begins

theorem flush {frame : Frame} {frames : List Frame} (text : List Char) {mode next : Mode}
    (begins : recorded <+: frameProperties (frame :: frames)) :
    Recorded recorded (((State.mk (frame :: frames) none mode).flush text).become next) := by
  have grown (others : List XmlAttribute) :
      recorded <+: frameProperties (frame :: frames) ++ others :=
    begins.trans (List.prefix_append _ _)
  rw [State.flush]
  split
  · exact .opened _ _ (fun _ => List.cons_ne_nil _ _) (grown _)
  · apply Recorded.opened
      ({ frame with children := frame.children ++ [textNode text] } :: frames)
    · exact fun _ => List.cons_ne_nil _ _
    · have more := grown (tagProperties next)
      simpa [frameProperties, forestProperties_append, textNode] using more

theorem closeElement {frames : List Frame} {mode : Mode} {name : List Char} {next : State}
    (begins : recorded <+: frameProperties frames)
    (closed : (State.mk frames none mode).closeElement name = some next) :
    Recorded recorded next := by
  rcases closeElement_cases closed with ⟨frame, rest, nested, rfl⟩
  simp only at nested
  subst nested
  exact addNode mode (by simpa [frameProperties] using begins)

theorem stepTag {frames : List Frame} {mode : Mode} {tag : XmlElement}
    {c : Char} {next : State}
    (begins : recorded <+: frameProperties frames ++ tag.properties)
    (stepped : Xml.stepTag ⟨frames, none, mode⟩ tag c = some next) :
    Recorded recorded next := by
  rcases stepTag_cases stepped with rfl | rfl | rfl
  · exact .opened _ _ False.elim begins
  · exact .opened _ _ False.elim begins
  · apply Recorded.opened
    · intro _
      simp
    · simpa [frameProperties, tagProperties] using begins

theorem become {frames : List Frame} {mode other : Mode} {next : State}
    (begins : recorded <+: frameProperties frames ++ tagProperties mode)
    (stepped : some ((State.mk frames none mode).become other) = some next)
    (same : tagProperties other = tagProperties mode)
    (nested : Nested other → frames ≠ []) :
    Recorded recorded next := by
  cases stepped
  exact .opened frames other nested (same ▸ begins)

theorem resume {frames : List Frame} {mode : Mode} {next : State}
    (begins : recorded <+: frameProperties frames ++ tagProperties mode)
    (tagless : tagProperties mode = [])
    (stepped : some (State.mk frames none mode).resume = some next) :
    Recorded recorded next := by
  cases frames with
  | nil => exact become begins stepped tagless.symm False.elim
  | cons frame frames =>
      exact become begins stepped tagless.symm fun _ => List.cons_ne_nil _ _

theorem becomeBehind {tree : XmlNode} {mode other : Mode} {next : State}
    (begins : recorded <+: properties tree)
    (stepped : some ((State.mk [] (some tree) mode).become other) = some next)
    (behind : Behind other) : Recorded recorded next := by
  cases stepped
  exact .closed tree other behind begins

theorem stepBehind {tree : XmlNode} {mode : Mode} (behind : Behind mode)
    (begins : recorded <+: properties tree) {next : State} {c : Char}
    (stepped : Xml.step ⟨[], some tree, mode⟩ c = some next) :
    Recorded recorded next := by
  simp only [Xml.step, Option.ite_none_left_eq_some] at stepped
  replace stepped := stepped.2
  cases mode with
  | misc =>
      simp only at stepped
      split at stepped
      · cases stepped
        exact .closed tree .misc trivial begins
      · simp only [Option.ite_none_right_eq_some] at stepped
        exact becomeBehind begins stepped.2 trivial
  | markup =>
      simp only [List.isEmpty_nil, Bool.not_true, Bool.and_false,
        Bool.false_eq_true, if_false, Option.isNone_some, Bool.or_false] at stepped
      split at stepped
      · exact becomeBehind begins stepped trivial
      · simp only [Option.ite_none_right_eq_some] at stepped
        exact becomeBehind begins stepped.2 trivial
  | declaration seen =>
      rcases stepDeclaration_cases stepped with rfl | rfl | inside | outside
      · exact .closed tree _ trivial begins
      · exact .closed tree _ trivial begins
      · exact absurd rfl inside.1
      · cases outside.1
  | comment dashes =>
      simp only at stepped
      split at stepped
      · exact becomeBehind begins stepped trivial
      · simp only [Option.ite_none_left_eq_some] at stepped
        exact becomeBehind begins stepped.2 trivial
  | instruction question =>
      simp only at stepped
      split at stepped
      · exact becomeBehind begins stepped trivial
      · exact becomeBehind begins stepped trivial
  | _ => exact behind.elim

theorem endValue {frames : List Frame} {mode : Mode} {tag : XmlElement}
    {name text : List Char} {next : State}
    (begins : recorded <+: frameProperties frames ++ tag.properties)
    (ended : (State.mk frames none mode).endValue tag name text = some next) :
    Recorded recorded next := by
  simp only [State.endValue, Option.ite_none_left_eq_some] at ended
  cases ended.2
  apply Recorded.opened
  · exact False.elim
  · rw [tagProperties, withProperty, ← List.append_assoc]
    exact begins.trans (List.prefix_append _ _)

theorem stepNested {frame : Frame} {frames : List Frame} {mode : Mode}
    {next : State} {c : Char} (begins : recorded <+: frameProperties (frame :: frames))
    (stepped : Xml.step ⟨frame :: frames, none, mode⟩ c = some next)
    (nested : Nested mode) :
    Recorded recorded next := by
  have here (other : Mode) (tagless : tagProperties other = []) :
      recorded <+: frameProperties (frame :: frames) ++ tagProperties other := by
    rwa [tagless, List.append_nil]
  have filled {other : Mode} : Nested other → frame :: frames ≠ [] := fun _ =>
    List.cons_ne_nil _ _
  simp only [Xml.step, Option.ite_none_left_eq_some] at stepped
  replace stepped := stepped.2
  cases mode with
  | content text =>
      simp only at stepped
      split at stepped
      · cases stepped
        exact flush text begins
      split at stepped
      · exact become (here _ rfl) stepped rfl filled
      · simp only [Option.ite_none_left_eq_some] at stepped
        exact become (here _ rfl) stepped.2 rfl filled
  | contentReference text reference =>
      simp only at stepped
      split at stepped
      · rw [Option.map_eq_some_iff] at stepped
        rcases stepped with ⟨char, _, rfl⟩
        exact .opened _ _ filled (here _ rfl)
      · simp only [Option.ite_none_right_eq_some] at stepped
        exact become (here _ rfl) stepped.2 rfl filled
  | cdata text =>
      simp only at stepped
      split at stepped
      · cases stepped
        exact flush _ begins
      · exact become (here _ rfl) stepped rfl filled
  | endName name =>
      simp only at stepped
      split at stepped
      · exact become (here _ rfl) stepped rfl filled
      split at stepped
      · exact become (here _ rfl) stepped rfl filled
      · simp only [Option.ite_none_right_eq_some] at stepped
        exact closeElement begins stepped.2
  | afterEndName name =>
      simp only at stepped
      split at stepped
      · cases stepped
        exact .opened _ _ filled (here _ rfl)
      · simp only [Option.ite_none_right_eq_some] at stepped
        exact closeElement begins stepped.2
  | _ => exact nested.elim

theorem stepOutside {frames : List Frame} {mode : Mode} {next : State} {c : Char}
    (begins : recorded <+: frameProperties frames ++ tagProperties mode)
    (stepped : Xml.step ⟨frames, none, mode⟩ c = some next) (outside : Outside mode) :
    Recorded recorded next := by
  simp only [Xml.step, Option.ite_none_left_eq_some] at stepped
  replace stepped := stepped.2
  cases mode with
  | misc =>
      simp only at stepped
      split at stepped
      · cases stepped
        exact .opened frames .misc False.elim begins
      · simp only [Option.ite_none_right_eq_some] at stepped
        exact become begins stepped.2 rfl False.elim
  | markup =>
      simp only at stepped
      split at stepped
      case isTrue inside =>
        simp only [Bool.and_eq_true, Bool.not_eq_true',
          List.isEmpty_eq_false_iff] at inside
        exact become begins stepped rfl fun _ => inside.2
      split at stepped
      · exact become begins stepped rfl False.elim
      split at stepped
      · exact become begins stepped rfl False.elim
      · simp only [Option.ite_none_right_eq_some] at stepped
        exact become begins stepped.2 rfl False.elim
  | declaration seen =>
      rcases stepDeclaration_cases stepped with rfl | rfl | ⟨inside, rfl⟩ | ⟨_, rfl⟩
      · exact .opened _ _ False.elim begins
      · exact .opened _ _ False.elim begins
      · exact .opened _ _ (fun _ => inside) begins
      · exact .opened _ _ False.elim begins
  | comment dashes =>
      simp only at stepped
      split at stepped
      · exact resume begins rfl stepped
      · simp only [Option.ite_none_left_eq_some] at stepped
        exact become begins stepped.2 rfl False.elim
  | instruction question =>
      simp only at stepped
      split at stepped
      · exact resume begins rfl stepped
      · exact become begins stepped rfl False.elim
  | doctype depth quote =>
      simp only [Option.some.injEq] at stepped
      rw [← stepped]
      rcases stepDoctype_cases ⟨frames, none, .doctype depth quote⟩ depth quote c with
        equal | ⟨inner, delimiter, equal⟩
      · rw [equal]
        exact .opened _ _ False.elim begins
      · rw [equal]
        exact .opened _ _ False.elim begins
  | _ => exact outside.elim

theorem stepInTag {frames : List Frame} {mode : Mode} {next : State} {c : Char}
    (begins : recorded <+: frameProperties frames ++ tagProperties mode)
    (stepped : Xml.step ⟨frames, none, mode⟩ c = some next) (between : ¬ Nested mode)
    (inside : ¬ Outside mode) : Recorded recorded next := by
  simp only [Xml.step, Option.ite_none_left_eq_some] at stepped
  replace stepped := stepped.2
  cases mode with
  | startName name =>
      simp only at stepped
      split at stepped
      · exact become begins stepped rfl False.elim
      · exact stepTag begins stepped
  | inTag tag =>
      simp only at stepped
      split at stepped
      · exact become begins stepped rfl False.elim
      · exact stepTag begins stepped
  | attributeName tag name =>
      simp only at stepped
      split at stepped
      · exact become begins stepped rfl False.elim
      split at stepped
      · exact become begins stepped rfl False.elim
      · simp only [Option.ite_none_right_eq_some] at stepped
        exact become begins stepped.2 rfl False.elim
  | afterName tag name =>
      simp only at stepped
      split at stepped
      · exact become begins stepped rfl False.elim
      · simp only [Option.ite_none_right_eq_some, Option.some.injEq] at stepped
        exact stepped.2 ▸ .opened frames (.afterName tag name) False.elim begins
  | beforeValue tag name =>
      simp only at stepped
      split at stepped
      · exact become begins stepped rfl False.elim
      · simp only [Option.ite_none_right_eq_some, Option.some.injEq] at stepped
        exact stepped.2 ▸ .opened frames (.beforeValue tag name) False.elim begins
  | value tag name quote text =>
      simp only at stepped
      split at stepped
      · exact endValue begins stepped
      split at stepped
      · cases stepped
      split at stepped
      · exact become begins stepped rfl False.elim
      · exact become begins stepped rfl False.elim
  | valueReference tag name quote text reference =>
      simp only at stepped
      split at stepped
      · rw [Option.map_eq_some_iff] at stepped
        rcases stepped with ⟨char, _, rfl⟩
        exact .opened _ _ False.elim begins
      · simp only [Option.ite_none_right_eq_some] at stepped
        exact become begins stepped.2 rfl False.elim
  | afterValue tag => exact stepTag begins stepped
  | slash tag =>
      simp only [Option.ite_none_right_eq_some, Option.some.injEq] at stepped
      rw [← stepped.2]
      exact addNode _ (by simpa [tagProperties] using begins)
  | content | contentReference | cdata | endName | afterEndName =>
        exact absurd trivial between
  | _ => exact absurd trivial inside

theorem step {state next : State} {c : Char} (kept : Recorded recorded state)
    (stepped : Xml.step state c = some next) : Recorded recorded next := by
  cases kept with
  | closed tree mode behind begins => exact stepBehind behind begins stepped
  | opened frames mode nested begins =>
      by_cases between : Nested mode
      · cases frames with
        | nil => exact absurd rfl (nested between)
        | cons frame frames =>
            have tagless : tagProperties mode = [] := by
              cases mode <;> first | rfl | exact between.elim
            rw [tagless, List.append_nil] at begins
            exact stepNested begins stepped between
      by_cases outside : Outside mode
      · exact stepOutside begins stepped outside
      · exact stepInTag begins stepped between outside

theorem run {state final : State} {text : List Char} (kept : Recorded recorded state)
    (ran : Xml.run state text = some final) : Recorded recorded final := by
  induction text generalizing state with
  | nil =>
      cases ran
      exact kept
  | cons c text induction =>
      rw [run_cons, Option.bind_eq_some_iff] at ran
      rcases ran with ⟨next, stepped, rest⟩
      exact induction (kept.step stepped) rest

/-- What was recorded begins the attributes of the tree that comes out. -/
theorem finish {state : State} {tree : XmlNode} (kept : Recorded recorded state)
    (finished : Xml.finish state = some tree) : recorded <+: properties tree := by
  cases kept with
  | closed root mode _ begins =>
      cases mode with
      | misc =>
          cases finished
          exact begins
      | _ => cases finished
  | opened frames mode _ _ => cases mode <;> cases finished

end Recorded

end IioEmu.Xml
