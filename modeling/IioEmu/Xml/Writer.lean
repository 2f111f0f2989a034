import IioEmu.Xml.Markup

/-! # Writing XML

A tree is written without any formatting of its own: an element without children as one
empty tag, and the characters that markup needs as references. Reading the text back gives
the tree, with the characters between two pieces of markup in one text node. -/

namespace IioEmu.Xml

/-! ## References in place of characters -/

def escapeValue (c : Char) : List Char :=
  if c = '<' then ['&', 'l', 't', ';']
  else if c = '>' then ['&', 'g', 't', ';']
  else if c = '&' then ['&', 'a', 'm', 'p', ';']
  else if c = '"' then ['&', 'q', 'u', 'o', 't', ';']
  else if c = '\n' then ['&', '#', '1', '0', ';']
  else if c = '\r' then ['&', '#', '1', '3', ';']
  else if c = '\t' then ['&', '#', '9', ';']
  else [c]

def escapeText (c : Char) : List Char :=
  if c = '<' then ['&', 'l', 't', ';']
  else if c = '>' then ['&', 'g', 't', ';']
  else if c = '&' then ['&', 'a', 'm', 'p', ';']
  else if c = '\r' then ['&', '#', '1', '3', ';']
  else [c]

theorem spells_escapeValue {c : Char} (valid : isChar c = true) :
    Spells (escapeValue c) [c] := by
  unfold escapeValue
  split
  case isTrue equal => exact equal ▸ spells_reference ['l', 't'] (by decide) rfl
  split
  case isTrue equal => exact equal ▸ spells_reference ['g', 't'] (by decide) rfl
  split
  case isTrue equal =>
    exact equal ▸ spells_reference ['a', 'm', 'p'] (by decide) rfl
  split
  case isTrue equal =>
    exact equal ▸ spells_reference ['q', 'u', 'o', 't'] (by decide) rfl
  split
  case isTrue equal =>
    exact equal ▸ spells_reference ['#', '1', '0'] (by decide) rfl
  split
  case isTrue equal =>
    exact equal ▸ spells_reference ['#', '1', '3'] (by decide) rfl
  split
  case isTrue equal => exact equal ▸ spells_reference ['#', '9'] (by decide) rfl
  case isFalse noTag _ noReference noQuote noLine noReturn noTab =>
    apply spells_plain
    refine ⟨valid, noQuote, noTag, noReference, ?_⟩
    intro white
    simpa [isWhite, noLine, noReturn, noTab] using white

theorem spells_escaped {value : List Char} (valid : ∀ c ∈ value, isChar c = true) :
    Spells (value.flatMap escapeValue) value :=
  spells_flatMap fun c member => spells_escapeValue (valid c member)

theorem run_contentReference (state : State) (text reference : List Char)
    {char : Char} (named : ∀ c ∈ reference, (isNameChar c || c == '#') = true)
    (stands : referenced reference = some char) :
    run (state.become (.content text)) ('&' :: reference ++ [';']) =
      some (state.become (.content (text ++ [char]))) := by
  have collected := run_collect state (.contentReference text) reference
    (fun c member read => by
      have allowed := named c member
      have notEnd := ne_end_of_reference allowed
      rw [Bool.or_eq_true, beq_iff_eq] at allowed
      simp [step, isChar_of_reference (named c member), notEnd, allowed]) []
  have opened : step (state.become (.content text)) '&' =
      some (state.become (.contentReference text [])) := by
    simp [step, isChar]
  have closed : step (state.become (.contentReference text reference)) ';' =
      some (state.become (.content (text ++ [char]))) := by
    simp [step, isChar, stands]
  rw [List.cons_append, run_cons_of_some opened, run_append_of_some collected,
    List.nil_append, run_cons_of_some closed, run_nil]

theorem run_escapeText (state : State) (text : List Char) {c : Char}
    (valid : isChar c = true) :
    run (state.become (.content text)) (escapeText c) =
      some (state.become (.content (text ++ [c]))) := by
  unfold escapeText
  split
  case isTrue equal =>
    exact equal ▸ run_contentReference state text ['l', 't'] (by decide) rfl
  split
  case isTrue equal =>
    exact equal ▸ run_contentReference state text ['g', 't'] (by decide) rfl
  split
  case isTrue equal =>
    exact equal ▸ run_contentReference state text ['a', 'm', 'p'] (by decide) rfl
  split
  case isTrue equal =>
    exact equal ▸ run_contentReference state text ['#', '1', '3'] (by decide) rfl
  case isFalse noTag noEnd noReference _ =>
    have stepped : step (state.become (.content text)) c =
        some (state.become (.content (text ++ [c]))) := by
      simp [step, valid, noTag, noReference, noEnd]
    rw [run_cons_of_some stepped, run_nil]

/-! ## Writing a tree -/

def spellingOf (property : XmlAttribute) : Spelling where
  property := property
  literal := property.value.toList.flatMap escapeValue

def tagOf (element : XmlElement) : Tag where
  name := element.name
  spellings := element.properties.map spellingOf

mutual

def render : XmlNode → List Char
  | .node label children =>
      if label.name = "text" then label.content.toList.flatMap escapeText
      else if children.isEmpty then '<' :: ((tagOf label).text ++ [] ++ ['/', '>'])
      else '<' :: ((tagOf label).text ++ [] ++ '>' :: renderForest children ++
        '<' :: '/' :: label.name.toList ++ ['>'])

def renderForest : List XmlNode → List Char
  | [] => []
  | node :: nodes => render node ++ renderForest nodes

end

mutual

def settle : XmlNode → XmlNode
  | .node label children =>
      if label.name = "text" then .node label children
      else .node label ((settleForest children).foldl Gathered.take .none).settled

def settleForest : List XmlNode → List XmlNode
  | [] => []
  | node :: nodes => settle node :: settleForest nodes

end

/-- A text node holds characters of XML and nothing else; any other node is an element with
names of XML, distinct attribute names and characters of XML in its values. -/
def Writable (element : XmlElement) : Prop :=
  if element.name = "text" then
    element.properties = [] ∧ ∀ c ∈ element.content.toList, isChar c = true
  else element.content = "" ∧ IsName element.name.toList ∧
    (element.properties.map XmlAttribute.name).Nodup ∧
    ∀ property ∈ element.properties, IsName property.name.toList ∧
      ∀ c ∈ property.value.toList, isChar c = true

instance (element : XmlElement) : Decidable (Writable element) := by
  unfold Writable
  infer_instance

theorem distinct_of_writable {element : XmlElement} (writable : Writable element) :
    (element.properties.map XmlAttribute.name).Nodup := by
  rw [Writable] at writable
  split at writable
  · rw [writable.1]
    exact List.nodup_nil
  · exact writable.2.2.1

theorem element_tagOf {element : XmlElement} (empty : element.content = "") :
    (tagOf element).element = element := by
  cases element with
  | mk name properties content =>
      cases empty
      simp [tagOf, Tag.element, spellingOf, Function.comp_def]

theorem faithful_tagOf {element : XmlElement} (named : element.name ≠ "text")
    (writable : Writable element) : (tagOf element).Faithful := by
  rw [Writable, if_neg named] at writable
  rcases writable with ⟨empty, isName, distinct, properties⟩
  constructor
  · exact isName
  · intro spelling member
    rw [tagOf, List.mem_map] at member
    rcases member with ⟨property, held, rfl⟩
    exact ⟨(properties property held).1, spells_escaped (properties property held).2⟩
  · rwa [element_tagOf empty]

theorem label_settle (tree : XmlNode) : (settle tree).label = tree.label := by
  cases tree with
  | node label children =>
      rw [settle]
      split <;> rfl

theorem settleForest_eq_map (forest : List XmlNode) :
    settleForest forest = forest.map settle := by
  induction forest with
  | nil => rfl
  | cons tree forest induction => rw [settleForest, induction, List.map_cons]

theorem reads_text {label : XmlElement} (named : label.name = "text")
    (writable : Writable label) (children : List XmlNode) :
    Reads (label.content.toList.flatMap escapeText) [.node label children] := by
  rw [Writable, if_pos named] at writable
  intro root element frames gathered
  have collected := run_flatMap ⟨⟨element, gathered.children⟩ :: frames,
    root, .misc⟩ .content
    escapeText label.content.toList
    (fun c member text => run_escapeText _ text (writable.2 c member)) gathered.pending
  simpa [inside, State.become, Gathered.take, named] using collected

mutual

theorem readsElement_render (tree : XmlNode) (named : tree.label.name ≠ "text")
    (writable : ∀ label ∈ tree.labels, Writable label) :
    ∃ body, render tree = '<' :: body ∧ ReadsElement body (settle tree) := by
  cases tree with
  | node label children =>
      rw [LabelledTree.label_node] at named
      have own : Writable label := writable label (by simp [LabelledTree.labels])
      have faithful := faithful_tagOf named own
      have same : (tagOf label).element = label := by
        rw [Writable, if_neg named] at own
        exact element_tagOf own.1
      rw [render, settle, if_neg named, if_neg named]
      by_cases childless : children.isEmpty
      · rw [if_pos childless, List.isEmpty_iff.mp childless, settleForest]
        have reads := readsElement_empty faithful [] (by simp)
        rw [same] at reads
        exact ⟨_, rfl, reads⟩
      · rw [if_neg childless]
        have content := reads_renderForest children fun other member =>
          writable other (by simp [LabelledTree.labels, member])
        have reads := readsElement_content faithful [] (by simp) content
        rw [same] at reads
        exact ⟨_, rfl, reads⟩

theorem reads_renderForest (forest : List XmlNode)
    (writable : ∀ label ∈ LabelledTree.forestLabels forest, Writable label) :
    Reads (renderForest forest) (settleForest forest) := by
  cases forest with
  | nil => exact reads_nil
  | cons tree forest =>
      have inTree : ∀ label ∈ tree.labels, Writable label := fun label member =>
        writable label (by simp [LabelledTree.forestLabels, member])
      have rest := reads_renderForest forest fun label member =>
        writable label (by simp [LabelledTree.forestLabels, member])
      by_cases named : tree.label.name = "text"
      · cases tree with
        | node label children =>
            have own := inTree label (by simp [LabelledTree.labels])
            have first := reads_text named own children
            rw [LabelledTree.label_node] at named
            rw [renderForest, settleForest, render, settle, if_pos named, if_pos named]
            exact reads_append first rest
      · rcases readsElement_render tree named inTree with ⟨body, rendered, reads⟩
        have first := reads_element reads (by rwa [label_settle])
        rw [renderForest, settleForest, rendered]
        exact reads_append first rest

end

/-! ## Whole documents -/

theorem return_not_mem_escapeValue (c : Char) : '\r' ∉ escapeValue c := by
  unfold escapeValue
  repeat' split
  all_goals simp_all [eq_comm]

theorem return_not_mem_escapeText (c : Char) : '\r' ∉ escapeText c := by
  unfold escapeText
  repeat' split
  all_goals simp_all [eq_comm]

theorem return_not_mem_tagOf {element : XmlElement} (named : element.name ≠ "text")
    (writable : Writable element) : '\r' ∉ (tagOf element).text := by
  rw [Writable, if_neg named] at writable
  rcases writable with ⟨_, isName, _, properties⟩
  rw [Tag.text, List.mem_append, not_or]
  apply And.intro (return_not_mem_of_isName isName)
  simp only [tagOf, Spelling.text, spellingOf, List.mem_flatMap, List.mem_map,
    not_exists, not_and]
  rintro spelling ⟨property, held, rfl⟩ member
  have absent := return_not_mem_of_isName (properties property held).1
  simp [absent, return_not_mem_escapeValue] at member

mutual

theorem return_not_mem_render (tree : XmlNode)
    (writable : ∀ label ∈ tree.labels, Writable label) : '\r' ∉ render tree := by
  cases tree with
  | node label children =>
      have own : Writable label := writable label (by simp [LabelledTree.labels])
      rw [render]
      by_cases named : label.name = "text"
      · rw [if_pos named]
        simp [return_not_mem_escapeText]
      · rw [if_neg named]
        have tag := return_not_mem_tagOf named own
        rw [Writable, if_neg named] at own
        have name := return_not_mem_of_isName own.2.1
        have content := return_not_mem_renderForest children fun other member =>
          writable other (by simp [LabelledTree.labels, member])
        split <;> simp [tag, name, content]

theorem return_not_mem_renderForest (forest : List XmlNode)
    (writable : ∀ label ∈ LabelledTree.forestLabels forest, Writable label) :
    '\r' ∉ renderForest forest := by
  cases forest with
  | nil => simp [renderForest]
  | cons tree forest =>
      have first := return_not_mem_render tree fun label member =>
        writable label (by simp [LabelledTree.forestLabels, member])
      have rest := return_not_mem_renderForest forest fun label member =>
        writable label (by simp [LabelledTree.forestLabels, member])
      simp [renderForest, first, rest]

end

/-- Reading back what was written. -/
theorem parse_render {prolog : List Char} (isProlog : IsProlog prolog) (blank : List Char)
    (white : ∀ c ∈ blank, isWhite c = true)
    (free : '\r' ∉ prolog ++ blank) {tree : XmlNode} (named : tree.label.name ≠ "text")
    (writable : ∀ label ∈ tree.labels, Writable label) :
    parse (prolog ++ (render tree ++ blank)) = some (settle tree) := by
  have absent := return_not_mem_render tree writable
  rcases readsElement_render tree named writable with ⟨body, rendered, reads⟩
  rw [rendered] at absent ⊢
  apply parse_document isProlog reads blank white
  simp only [List.mem_append, not_or] at free ⊢
  exact ⟨free.1, absent, free.2⟩

end IioEmu.Xml
