import Mathlib.Data.List.Nodup
import IioEmu.Xml.Pieces

/-! # Reading tags and elements

What a piece of markup reads as does not depend on where it stands, so the reading of an
element is put together from the readings of its attributes and of its content. -/

namespace IioEmu.Xml

/-! ## Attributes -/

def Spells (literal value : List Char) : Prop :=
  ∀ (state : State) (tag : XmlElement) (name read : List Char),
    run (state.become (.value tag name '"' read)) literal =
      some (state.become (.value tag name '"' (read ++ value)))

theorem spells_flatMap {escape : Char → List Char} {value : List Char}
    (each : ∀ c ∈ value, Spells (escape c) [c]) :
    Spells (value.flatMap escape) value := by
  intro state tag name read
  apply run_flatMap state (.value tag name '"') escape value
  intro c member before
  exact each c member state tag name before

theorem spells_plain {c : Char} (plain : IsPlain c) : Spells [c] [c] := by
  intro state tag name read
  rw [run_cons_of_some (step_value_plain state tag name read plain), run_nil]

theorem spells_reference (reference : List Char) {c : Char}
    (named : ∀ char ∈ reference, (isNameChar char || char == '#') = true)
    (stands : referenced reference = some c) :
    Spells ('&' :: reference ++ [';']) [c] := by
  intro state tag name read
  exact run_valueReference state tag name read named stands

theorem spells_self {text : List Char} (plain : ∀ c ∈ text, IsPlain c) :
    Spells text text := by
  have each : Spells (text.flatMap fun c => [c]) text :=
    spells_flatMap fun c member => spells_plain (plain c member)
  rwa [List.flatMap_singleton'] at each

structure Spelling where
  property : XmlAttribute
  literal : List Char

namespace Spelling

def text (spelling : Spelling) : List Char :=
  ' ' :: spelling.property.name.toList ++ '=' :: '"' :: spelling.literal ++ ['"']

structure Faithful (spelling : Spelling) : Prop where
  named : IsName spelling.property.name.toList
  spells : Spells spelling.literal spelling.property.value.toList

end Spelling

/-! ## Inside a start tag -/

inductive InTag : Mode → XmlElement → Prop
  | startName (name : List Char) : InTag (.startName name) (emptyElement name)
  | inTag (tag : XmlElement) : InTag (.inTag tag) tag
  | afterValue (tag : XmlElement) : InTag (.afterValue tag) tag

section Tags

variable {mode : Mode} {tag : XmlElement} (inside : InTag mode tag) (state : State)

include inside

theorem step_inTag {c : Char} (valid : isChar c = true) (unnamed : isNameChar c = false) :
    step (state.become mode) c = stepTag (state.become mode) tag c := by
  have notStart : isNameStart c = false := by
    by_contra named
    rw [Bool.not_eq_false] at named
    rw [isNameChar_of_isNameStart named] at unnamed
    cases unnamed
  cases inside <;> simp [step, valid, unnamed, notStart]

theorem step_inTag_white {c : Char} (white : isWhite c = true) :
    step (state.become mode) c = some (state.become (.inTag tag)) := by
  have valid := isChar_of_isWhite white
  have unnamed := isNameChar_of_isWhite white
  rw [step_inTag inside state valid unnamed, stepTag, if_pos white]
  rfl

theorem step_inTag_slash :
    step (state.become mode) '/' = some (state.become (.slash tag)) := by
  rw [step_inTag inside state (by decide) (by decide)]
  rfl

theorem step_inTag_close :
    step (state.become mode) '>' = some (state.openElement tag) := by
  rw [step_inTag inside state (by decide) (by decide)]
  rfl

theorem run_opening {name : List Char} (named : IsName name) :
    run (state.become mode) (' ' :: name ++ ['=', '"']) =
      some (state.become (.value tag name '"' [])) := by
  rcases named.starts with ⟨first, more, spelled, starts⟩
  have valid := isChar_of_isNameChar (isNameChar_of_isNameStart starts)
  have opened : step (state.become (.inTag tag)) first =
      some (state.become (.attributeName tag [first])) := by
    simp [step, valid, starts]
  have collected := run_attributeName state more
    (fun c member => named.named c (by simp [spelled, member])) tag [first]
  have equals : step (state.become (.attributeName tag (first :: more))) '=' =
      some (state.become (.beforeValue tag (first :: more))) := rfl
  have quoted : step (state.become (.beforeValue tag (first :: more))) '"' =
      some (state.become (.value tag (first :: more) '"' [])) := rfl
  rw [spelled]
  simp only [List.cons_append]
  rw [run_cons_of_some (step_inTag_white inside state (by decide)),
    run_cons_of_some opened, run_append_of_some collected]
  simp only [List.cons_append, List.nil_append]
  rw [run_cons_of_some equals, run_cons_of_some quoted, run_nil]

theorem run_spelling {spelling : Spelling} (faithful : spelling.Faithful)
    (fresh : spelling.property.name ∉ tag.properties.map XmlAttribute.name) :
    run (state.become mode) spelling.text =
      some (state.become (.afterValue
        { tag with properties := tag.properties ++ [spelling.property] })) := by
  let name := spelling.property.name.toList
  have opened := run_opening inside state faithful.named
  have value := faithful.spells state tag name []
  have ended :
      step (state.become (.value tag name '"' spelling.property.value.toList)) '"' =
      some (state.become (.afterValue
        { tag with properties := tag.properties ++ [spelling.property] })) := by
    have absent : (tag.properties.any fun property =>
        property.name == String.ofList name) = false := by
      rw [List.any_eq_false]
      intro property member equal
      rw [String.ofList_toList, beq_iff_eq] at equal
      exact fresh (equal ▸ List.mem_map_of_mem member)
    have recorded : state.endValue tag name spelling.property.value.toList =
        some (state.become (.afterValue
          { tag with properties := tag.properties ++ [spelling.property] })) := by
      rw [State.endValue, absent, withProperty, String.ofList_toList,
        String.ofList_toList]
      rfl
    rw [← recorded]
    simp [step, isChar, State.endValue]
  have parts : spelling.text =
      (' ' :: name ++ ['=', '"']) ++ (spelling.literal ++ ['"']) := by
    simp [Spelling.text, name]
  rw [parts, run_append_of_some opened, run_append_of_some value, List.nil_append,
    run_cons_of_some ended, run_nil]

end Tags

theorem fresh_of_nodup {tag : XmlElement} {spelling : Spelling}
    {spellings : List Spelling}
    (distinct : ((tag.properties ++ (spelling :: spellings).map Spelling.property).map
      XmlAttribute.name).Nodup) :
    spelling.property.name ∉ tag.properties.map XmlAttribute.name := by
  rw [List.map_append, List.nodup_append] at distinct
  intro member
  exact distinct.2.2 _ member spelling.property.name (by simp) rfl

theorem run_spellings {mode : Mode} {tag : XmlElement}
    (inside : InTag mode tag) (state : State) {spellings : List Spelling}
    (faithful : ∀ spelling ∈ spellings, spelling.Faithful)
    (distinct : ((tag.properties ++ spellings.map Spelling.property).map
      XmlAttribute.name).Nodup) :
    ∃ last, InTag last { tag with
        properties := tag.properties ++ spellings.map Spelling.property } ∧
      run (state.become mode) (spellings.flatMap Spelling.text) =
          some (state.become last) := by
  induction spellings generalizing mode tag with
  | nil =>
      refine ⟨mode, ?_, rfl⟩
      simpa using inside
  | cons spelling spellings induction =>
      have fresh := fresh_of_nodup distinct
      have read := run_spelling inside state (faithful spelling (by simp)) fresh
      have rest := induction (InTag.afterValue
          { tag with properties := tag.properties ++ [spelling.property] })
        (fun other member => faithful other (by simp [member])) (by simpa using distinct)
      rcases rest with ⟨last, closed, runs⟩
      refine ⟨last, by simpa using closed, ?_⟩
      rw [List.flatMap_cons, run_append_of_some read, runs]

/-! ## Elements -/

structure Tag where
  name : String
  spellings : List Spelling

namespace Tag

def text (tag : Tag) : List Char := tag.name.toList ++ tag.spellings.flatMap Spelling.text

def element (tag : Tag) : XmlElement :=
  ⟨tag.name, tag.spellings.map Spelling.property, ""⟩

structure Faithful (tag : Tag) : Prop where
  named : IsName tag.name.toList
  faithful : ∀ spelling ∈ tag.spellings, spelling.Faithful
  distinct : (tag.element.properties.map XmlAttribute.name).Nodup

end Tag

namespace State

def Open (state : State) : Prop := state.frames ≠ [] ∨ state.root = none

end State

theorem run_tagName {name : List Char} (isName : IsName name) {state : State}
    (opened : state.Open) :
    run (state.become .markup) name = some (state.become (.startName name)) := by
  rcases isName.starts with ⟨first, more, spelled, starts⟩
  have valid := isChar_of_isNameChar (isNameChar_of_isNameStart starts)
  have mayOpen : (!state.frames.isEmpty || state.root.isNone) = true := by
    cases opened with
    | inl inFrame => simp [inFrame]
    | inr rootless => simp [rootless]
  have notMark : ∀ mark, isNameChar mark = false → first ≠ mark := fun _ =>
    ne_of_isNameChar (isNameChar_of_isNameStart starts)
  have begun : step (state.become .markup) first =
      some (state.become (.startName [first])) := by
    simp [step, valid, starts, mayOpen, notMark '/' (by decide), notMark '!' (by decide),
      notMark '?' (by decide)]
  have collected := run_startName state more
    (fun c member => isName.named c (by simp [spelled, member])) [first]
  rw [spelled, run_cons_of_some begun]
  exact collected

theorem run_tag {tag : Tag} (faithful : tag.Faithful) {state : State}
    (opened : state.Open) :
    ∃ last, InTag last tag.element ∧
      run (state.become .markup) tag.text = some (state.become last) := by
  have attributes :=
    run_spellings (InTag.startName tag.name.toList) state faithful.faithful
    faithful.distinct
  rcases attributes with ⟨last, inside, runs⟩
  refine ⟨last, ?_, ?_⟩
  · simpa [emptyElement, Tag.element] using inside
  · rw [Tag.text, run_append_of_some (run_tagName faithful.named opened), runs]

theorem run_gap {mode : Mode} {tag : XmlElement} (inside : InTag mode tag) (state : State)
    {gap : List Char} (white : ∀ c ∈ gap, isWhite c = true) :
    ∃ last, InTag last tag ∧ run (state.become mode) gap = some (state.become last) := by
  induction gap generalizing mode with
  | nil => exact ⟨mode, inside, rfl⟩
  | cons c gap induction =>
      have rest := induction (InTag.inTag tag) fun other member =>
        white other (by simp [member])
      rcases rest with ⟨last, closed, runs⟩
      refine ⟨last, closed, ?_⟩
      rw [run_cons_of_some (step_inTag_white inside state (white c (by simp))), runs]

def ReadsElement (text : List Char) (node : XmlNode) : Prop :=
  ∀ state : State, state.Open →
    run (state.become .markup) text = some (state.addNode node).resume

theorem resume_become (state : State) (mode : Mode) :
    (state.become mode).resume = state.resume :=
  rfl

theorem readsElement_empty {tag : Tag} (faithful : tag.Faithful) (gap : List Char)
    (white : ∀ c ∈ gap, isWhite c = true) :
    ReadsElement (tag.text ++ gap ++ ['/', '>']) (.node tag.element []) := by
  intro state opened
  rcases run_tag faithful opened with ⟨middle, inside, tagged⟩
  rcases run_gap inside state white with ⟨last, closing, gapped⟩
  have closed : step (state.become (.slash tag.element)) '>' =
      some (state.addNode (.node tag.element [])).resume := by
    simp [step, isChar, resume_become]
  rw [List.append_assoc, run_append_of_some tagged, run_append_of_some gapped,
    run_cons_of_some (step_inTag_slash closing state), run_cons_of_some closed, run_nil]

/-! ## Content -/

/-- What has been read of an element's content: its children so far, and the characters
since the last markup. -/
structure Gathered where
  children : List XmlNode
  pending : List Char

namespace Gathered

def none : Gathered := ⟨[], []⟩

def settled (gathered : Gathered) : List XmlNode :=
  if gathered.pending.isEmpty then gathered.children
  else gathered.children ++ [textNode gathered.pending]

def take (gathered : Gathered) (node : XmlNode) : Gathered :=
  if node.label.name = "text" then
    { gathered with pending := gathered.pending ++ node.label.content.toList }
  else ⟨gathered.settled ++ [node], []⟩

end Gathered

def inside (root : Option XmlNode) (element : XmlElement) (frames : List Frame)
    (gathered : Gathered) : State :=
  ⟨⟨element, gathered.children⟩ :: frames, root, .content gathered.pending⟩

/-- A text reads as a list of nodes wherever it stands in the content of an element. -/
def Reads (text : List Char) (nodes : List XmlNode) : Prop :=
  ∀ root element frames gathered,
    run (inside root element frames gathered) text =
      some (inside root element frames (nodes.foldl Gathered.take gathered))

theorem reads_nil : Reads [] [] := by
  intro root element frames gathered
  rfl

theorem reads_append {first second : List Char} {nodes others : List XmlNode}
    (readsFirst : Reads first nodes) (readsSecond : Reads second others) :
    Reads (first ++ second) (nodes ++ others) := by
  intro root element frames gathered
  rw [run_append_of_some (readsFirst root element frames gathered), List.foldl_append,
    readsSecond]

theorem step_inside_markup (root : Option XmlNode) (element : XmlElement)
    (frames : List Frame) (gathered : Gathered) :
    step (inside root element frames gathered) '<' =
      some ⟨⟨element, gathered.settled⟩ :: frames, root, .markup⟩ := by
  by_cases empty : gathered.pending.isEmpty <;>
    simp [inside, step, isChar, State.flush, State.become, State.addNode,
      Gathered.settled, empty]

theorem reads_element {text : List Char} {node : XmlNode} (reads : ReadsElement text node)
    (named : node.label.name ≠ "text") : Reads ('<' :: text) [node] := by
  intro root element frames gathered
  have opened : State.Open ⟨⟨element, gathered.settled⟩ :: frames, root, .markup⟩ := by
    apply Or.inl
    simp
  rw [run_cons_of_some (step_inside_markup root element frames gathered)]
  have read := reads _ opened
  rw [State.become] at read
  rw [read]
  simp [State.addNode, State.resume, State.become, inside, Gathered.take, named]

theorem step_endName_close (state : State) (name : List Char) :
    step (state.become (.endName name)) '>' =
      (state.become (.endName name)).closeElement name := rfl

theorem closeElement_own (state : State) (element : XmlElement) (children : List XmlNode)
    (mode : Mode) :
    State.closeElement ⟨⟨element, children⟩ :: state.frames, state.root, mode⟩
      element.name.toList = some (state.addNode (.node element children)).resume := by
  simp only [State.closeElement, String.ofList_toList, if_true]
  cases state with
  | mk frames root other => cases frames <;> rfl

theorem run_startTag {tag : Tag} (faithful : tag.Faithful) {gap : List Char}
    (white : ∀ c ∈ gap, isWhite c = true) {state : State} (opened : state.Open) :
    run (state.become .markup) (tag.text ++ gap ++ ['>']) =
      some (inside state.root tag.element state.frames .none) := by
  rcases run_tag faithful opened with ⟨middle, inTag, tagged⟩
  rcases run_gap inTag state white with ⟨last, closing, gapped⟩
  rw [List.append_assoc, run_append_of_some tagged, run_append_of_some gapped,
    run_cons_of_some (step_inTag_close closing state), run_nil]
  rfl

theorem run_endTag {name : String} (named : IsName name.toList) {element : XmlElement}
    (own : element.name = name) (state : State) (gathered : Gathered) :
    run (inside state.root element state.frames gathered)
      ('<' :: '/' :: name.toList ++ ['>']) =
        some (state.addNode (.node element gathered.settled)).resume := by
  let within : State := ⟨⟨element, gathered.settled⟩ :: state.frames, state.root, .markup⟩
  have ending : step within '/' = some (within.become (.endName [])) := by
    simp [within, step, isChar]
  have collected := run_endName within name.toList named.named []
  have closed : step (within.become (.endName name.toList)) '>' =
      some (state.addNode (.node element gathered.settled)).resume := by
    rw [step_endName_close, ← own]
    exact closeElement_own state element gathered.settled (.endName element.name.toList)
  rw [List.cons_append, run_cons_of_some (step_inside_markup _ _ _ _), List.cons_append,
    run_cons_of_some ending, run_append_of_some collected, List.nil_append,
    run_cons_of_some closed, run_nil]

theorem readsElement_content {tag : Tag} (faithful : tag.Faithful) (gap : List Char)
    (white : ∀ c ∈ gap, isWhite c = true) {text : List Char} {nodes : List XmlNode}
    (reads : Reads text nodes) :
    ReadsElement (tag.text ++ gap ++ '>' :: text ++ '<' :: '/' :: tag.name.toList ++ ['>'])
      (.node tag.element (nodes.foldl Gathered.take .none).settled) := by
  intro state opened
  have started := run_startTag faithful white opened
  have content := reads state.root tag.element state.frames .none
  have ended :=
    run_endTag faithful.named (show tag.element.name = tag.name from rfl) state
    (nodes.foldl Gathered.take .none)
  have whole : tag.text ++ gap ++ '>' :: text ++ '<' :: '/' :: tag.name.toList ++ ['>'] =
      (tag.text ++ gap ++ ['>']) ++
      (text ++ ('<' :: '/' :: tag.name.toList ++ ['>'])) := by
    simp
  rw [whole, run_append_of_some started, run_append_of_some content, ended]

/-! ## Whole documents -/

/-- A text that takes the reader to where the root begins. -/
def IsProlog (prolog : List Char) : Prop :=
  run start prolog = some start

def atStart (state : State) : Bool :=
  state.frames.isEmpty && state.root.isNone && match state.mode with
    | .misc => true
    | _ => false

theorem isProlog_of_checked {prolog : List Char}
    (checked : (run start prolog).any atStart = true) : IsProlog prolog := by
  rw [Option.any_eq_true] at checked
  rcases checked with ⟨state, ran, same⟩
  rw [IsProlog, ran]
  cases state with
  | mk frames root mode =>
      simp only [atStart, Bool.and_eq_true, List.isEmpty_iff,
        Option.isNone_iff_eq_none] at same
      rcases same with ⟨⟨noFrames, noRoot⟩, isMisc⟩
      cases mode <;> simp_all [start]

theorem normalizeLineEnds_of_free {text : List Char} (free : '\r' ∉ text) :
    normalizeLineEnds text = text := by
  induction text with
  | nil => rfl
  | cons c text induction =>
      have different : c ≠ '\r' := fun equal => free (by simp [equal])
      have rest := induction fun member => free (by simp [member])
      rw [normalizeLineEnds]
      · rw [rest]
      · intro more equal
        exact fun _ => different equal
      · exact different

theorem run_misc_white (root : Option XmlNode) {blank : List Char}
    (white : ∀ c ∈ blank, isWhite c = true) :
    run ⟨[], root, .misc⟩ blank = some ⟨[], root, .misc⟩ := by
  induction blank with
  | nil => rfl
  | cons c blank induction =>
      have isWhiteSpace := white c (by simp)
      have stepped : step ⟨[], root, .misc⟩ c = some ⟨[], root, .misc⟩ := by
        simp [step, isChar_of_isWhite isWhiteSpace, isWhiteSpace]
      rw [run_cons_of_some stepped]
      exact induction fun other member => white other (by simp [member])

theorem parse_document {prolog body : List Char} {tree : XmlNode}
    (isProlog : IsProlog prolog) (reads : ReadsElement body tree) (blank : List Char)
    (white : ∀ c ∈ blank, isWhite c = true)
    (free : '\r' ∉ prolog ++ ('<' :: body ++ blank)) :
    parse (prolog ++ ('<' :: body ++ blank)) = some tree := by
  have opened : step start '<' = some (start.become .markup) := rfl
  have read := reads start (Or.inr rfl)
  have ended := run_misc_white (some tree) white
  rw [parse, normalizeLineEnds_of_free free,
    run_append_of_some isProlog, List.cons_append, run_cons_of_some opened,
    run_append_of_some read]
  exact congrArg (Option.bind · finish) ended

end IioEmu.Xml
