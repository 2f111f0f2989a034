import IioEmu.Utils.ContextXml
import IioEmu.Xml.ElementTree

/-! # What a client reads in the description

The text of the description is tidied without regard to where the values of attributes begin
and end. Markup has no line feeds and no runs of spaces of its own, and the values have no
line feeds that are not references, so what is read from it is the stripped document with
every value tidied. -/

namespace IioEmu

open Xml

/-! ## Tidying text piece by piece -/

def IsHard (c : Char) : Prop := c ≠ ' ' ∧ c ≠ '\n'

instance (c : Char) : Decidable (IsHard c) := inferInstanceAs (Decidable (_ ∧ _))

theorem uniqueSpaces_cons_of_ne {c : Char} (notSpace : c ≠ ' ') (text : List Char) :
    uniqueSpaces (c :: text) = c :: uniqueSpaces text := by
  cases text with
  | nil => rfl
  | cons next text => rw [uniqueSpaces, if_neg (by simp [notSpace])]

theorem uniqueSpaces_append {c : Char} (notSpace : c ≠ ' ') (first second : List Char) :
    uniqueSpaces (first ++ c :: second) = uniqueSpaces first ++
    uniqueSpaces (c :: second) := by
  induction first with
  | nil => rfl
  | cons head first induction =>
      cases first with
      | nil =>
          rw [List.cons_append, List.nil_append, uniqueSpaces,
            if_neg (by simp [notSpace])]
          rfl
      | cons next first =>
          rw [List.cons_append, List.cons_append, uniqueSpaces, uniqueSpaces]
          rw [List.cons_append] at induction
          rw [induction]
          split <;> rfl

@[simp] theorem cleanUp_nil : cleanUp [] = [] := rfl

theorem cleanUp_cons {c : Char} (hard : IsHard c) (text : List Char) :
    cleanUp (c :: text) = c :: cleanUp text := by
  rw [cleanUp, List.filter_cons_of_pos (by simp [hard.2]),
    uniqueSpaces_cons_of_ne hard.1, cleanUp]

theorem cleanUp_append_cons {c : Char} (hard : IsHard c) (first second : List Char) :
    cleanUp (first ++ c :: second) = cleanUp first ++ cleanUp (c :: second) := by
  simp only [cleanUp, List.filter_append]
  rw [List.filter_cons_of_pos (by simp [hard.2]), uniqueSpaces_append hard.1]

theorem cleanUp_concat_append {c : Char} (hard : IsHard c) (first second : List Char) :
    cleanUp (first ++ [c] ++ second) = cleanUp (first ++ [c]) ++ cleanUp second := by
  rw [List.append_assoc, List.singleton_append, cleanUp_append_cons hard,
    cleanUp_append_cons hard, cleanUp_cons hard, cleanUp_cons hard]
  simp

theorem cleanUp_hard_append {text : List Char} (hard : ∀ c ∈ text, IsHard c)
    (rest : List Char) :
    cleanUp (text ++ rest) = text ++ cleanUp rest := by
  induction text with
  | nil => rfl
  | cons c text induction =>
      rw [List.cons_append, cleanUp_cons (hard c (by simp)),
        induction fun other member => hard other (by simp [member]), List.cons_append]

theorem cleanUp_space_cons {c : Char} (hard : IsHard c) (text : List Char) :
    cleanUp (' ' :: c :: text) = ' ' :: cleanUp (c :: text) := by
  have parts := cleanUp_append_cons hard [' '] text
  exact parts

theorem isHard_of_isNameChar {c : Char} (named : isNameChar c = true) : IsHard c :=
  ⟨ne_of_isNameChar named (by decide), ne_of_isNameChar named (by decide)⟩

theorem mem_of_mem_uniqueSpaces {c : Char} {text : List Char}
    (member : c ∈ uniqueSpaces text) :
    c ∈ text := by
  fun_induction uniqueSpaces text with
  | case1 first second rest spaces induction =>
        exact List.mem_cons_of_mem _ (induction member)
  | case2 first second rest _ induction =>
      rw [List.mem_cons] at member
      cases member with
      | inl equal => simp [equal]
      | inr later => exact List.mem_cons_of_mem _ (induction later)
  | case3 text _ => exact member

theorem mem_of_mem_cleanUp {c : Char} {text : List Char}
    (member : c ∈ cleanUp text) : c ∈ text :=
  List.mem_of_mem_filter (mem_of_mem_uniqueSpaces member)

/-! ## Tidying what is written for characters -/

structure WritesSpaces (escape : Char → List Char) : Prop where
  space : escape ' ' = [' ']
  other : ∀ c ≠ ' ', ' ' ∉ escape c ∧ escape c ≠ []

theorem uniqueSpaces_free_append {text : List Char} (free : ' ' ∉ text)
    (rest : List Char) :
    uniqueSpaces (text ++ rest) = text ++ uniqueSpaces rest := by
  induction text with
  | nil => rfl
  | cons c text induction =>
      rw [List.mem_cons, not_or] at free
      rw [List.cons_append, uniqueSpaces_cons_of_ne (Ne.symm free.1), induction free.2,
        List.cons_append]

theorem uniqueSpaces_flatMap {escape : Char → List Char} (writes : WritesSpaces escape)
    (text : List Char) :
    uniqueSpaces (text.flatMap escape) = (uniqueSpaces text).flatMap escape := by
  fun_induction uniqueSpaces text with
  | case1 first second rest spaces induction =>
      rcases spaces with ⟨rfl, rfl⟩
      have spelled : (' ' :: rest).flatMap escape = ' ' :: rest.flatMap escape := by
        rw [List.flatMap_cons, writes.space, List.singleton_append]
      rw [List.flatMap_cons, writes.space, List.singleton_append, spelled, uniqueSpaces,
        if_pos ⟨rfl, rfl⟩, ← spelled, induction]
  | case2 first second rest apart induction =>
      rw [List.flatMap_cons]
      change _ = escape first ++ (uniqueSpaces (second :: rest)).flatMap escape
      rw [← induction]
      by_cases isSpace : first = ' '
      · have notSpace : second ≠ ' ' := fun equal => apart ⟨isSpace, equal⟩
        rcases List.exists_cons_of_ne_nil (writes.other second notSpace).2 with
          ⟨head, tail, written⟩
        have headNotSpace : head ≠ ' ' := by
          intro equal
          apply (writes.other second notSpace).1
          rw [written, equal]
          exact List.mem_cons_self
        rw [isSpace, writes.space, List.flatMap_cons, written]
        exact uniqueSpaces_append headNotSpace [' '] _
      · exact uniqueSpaces_free_append (writes.other first isSpace).1 _
  | case3 text short =>
      match text with
      | [] => rfl
      | [c] =>
          by_cases isSpace : c = ' '
          · simp [isSpace, writes.space, uniqueSpaces]
          · have free := uniqueSpaces_free_append (writes.other c isSpace).1 []
            simpa [uniqueSpaces] using free
      | first :: second :: rest => exact absurd rfl (short first second rest)

theorem writesSpaces_escapeValue : WritesSpaces escapeValue where
  space := rfl
  other c notSpace := by
    unfold escapeValue
    repeat' split
    all_goals simp [Ne.symm notSpace]

theorem writesSpaces_escapeText : WritesSpaces escapeText where
  space := rfl
  other c notSpace := by
    unfold escapeText
    repeat' split
    all_goals simp [Ne.symm notSpace]

theorem cleanUp_value (value : List Char) :
    cleanUp (value.flatMap escapeValue) = (uniqueSpaces value).flatMap escapeValue := by
  have noLines :
      (value.flatMap escapeValue).filter (· != '\n') = value.flatMap escapeValue := by
    rw [List.filter_eq_self]
    intro c member
    rw [List.mem_flatMap] at member
    rcases member with ⟨source, _, written⟩
    rw [bne_iff_ne]
    intro equal
    revert written
    unfold escapeValue
    repeat' split
    all_goals simp_all [eq_comm]
  rw [cleanUp, noLines, uniqueSpaces_flatMap writesSpaces_escapeValue]

theorem cleanUp_text (text : List Char) :
    cleanUp (text.flatMap escapeText) = (cleanUp text).flatMap escapeText := by
  have lines : (text.flatMap escapeText).filter (· != '\n') =
      (text.filter (· != '\n')).flatMap escapeText := by
    induction text with
    | nil => rfl
    | cons c text induction =>
        rw [List.flatMap_cons, List.filter_append, induction]
        by_cases line : c = '\n'
        · simp [line, escapeText]
        · have kept : (escapeText c).filter (· != '\n') = escapeText c := by
            unfold escapeText
            repeat' split
            all_goals simp [line]
          simp [line, kept]
  rw [cleanUp, lines, uniqueSpaces_flatMap writesSpaces_escapeText, cleanUp]

/-! ## Tidying a tree -/

def tidyProperty (property : XmlAttribute) : XmlAttribute where
  name := property.name
  value := String.ofList (uniqueSpaces property.value.toList)

def tidyElement (element : XmlElement) : XmlElement :=
  { element with properties := element.properties.map tidyProperty }

mutual

def tidy : XmlNode → XmlNode
  | .node label children =>
      .node (tidyElement label) (if children.isEmpty then [] else tidyForest [] children)

def tidyForest : List Char → List XmlNode → List XmlNode
  | pending, [] => [textNode (cleanUp pending)]
  | pending, node :: nodes =>
      if node.label.name = "text" then
        tidyForest (pending ++ node.label.content.toList) nodes
      else textNode (cleanUp pending) :: tidy node :: tidyForest [] nodes

end

theorem label_tidy (tree : XmlNode) : (tidy tree).label = tidyElement tree.label := by
  cases tree
  rfl

theorem tidyForest_ne_nil (pending : List Char) (forest : List XmlNode) :
    tidyForest pending forest ≠ [] := by
  induction forest generalizing pending with
  | nil => simp [tidyForest]
  | cons node nodes induction =>
      rw [tidyForest]
      split
      · exact induction _
      · simp

theorem cleanUp_spelling {property : XmlAttribute} (named : IsName property.name.toList)
    (rest : List Char) :
    cleanUp ((spellingOf property).text ++ rest) =
      (spellingOf (tidyProperty property)).text ++ cleanUp rest := by
  rcases named.starts with ⟨first, more, spelled, starts⟩
  have hard : ∀ c ∈ first :: more, IsHard c := fun c member =>
    isHard_of_isNameChar (named.named c (spelled ▸ member))
  have quote : IsHard '"' := by decide
  have equals : IsHard '=' := by decide
  simp only [Spelling.text, spellingOf, tidyProperty, spelled, String.toList_ofList]
  rw [cleanUp_concat_append quote]
  congr 1
  simp only [List.cons_append, List.append_assoc]
  rw [cleanUp_space_cons (hard first (by simp)), ← List.cons_append,
    cleanUp_hard_append hard, cleanUp_cons equals, cleanUp_cons quote,
    cleanUp_append_cons quote, cleanUp_value,
    cleanUp_cons quote, cleanUp_nil]
  rfl

theorem cleanUp_spellings {properties : List XmlAttribute}
    (named : ∀ property ∈ properties, IsName property.name.toList) (rest : List Char) :
    cleanUp ((properties.map spellingOf).flatMap Spelling.text ++ rest) =
      ((properties.map tidyProperty).map spellingOf).flatMap
        Spelling.text ++ cleanUp rest := by
  induction properties with
  | nil => rfl
  | cons property properties induction =>
      have others := induction fun other member => named other (by simp [member])
      simp only [List.map_cons, List.flatMap_cons, List.append_assoc]
      rw [cleanUp_spelling (named property (by simp)), others]

theorem cleanUp_tagOf {element : XmlElement} (named : element.name ≠ "text")
    (writable : Writable element) (rest : List Char) :
    cleanUp ((tagOf element).text ++ rest) =
      (tagOf (tidyElement element)).text ++ cleanUp rest := by
  rw [Writable, if_neg named] at writable
  rcases writable with ⟨_, isName, _, properties⟩
  have attributes :=
    cleanUp_spellings (fun property member => (properties property member).1) rest
  simp only [Tag.text, tagOf, tidyElement, List.append_assoc]
  rw [cleanUp_hard_append fun c member => isHard_of_isNameChar (isName.named c member),
    attributes]

mutual

/-- Tidying the text of an element tidies its values and its text, and nothing else. -/
theorem cleanUp_render (tree : XmlNode) (named : tree.label.name ≠ "text")
    (writable : ∀ label ∈ tree.labels, Writable label) (rest : List Char) :
    cleanUp (render tree ++ rest) = render (tidy tree) ++ cleanUp rest := by
  cases tree with
  | node label children =>
      rw [LabelledTree.label_node] at named
      have own : Writable label := writable label (by simp [LabelledTree.labels])
      have tidyNamed : (tidyElement label).name ≠ "text" := named
      have opening : IsHard '<' := by decide
      have slash : IsHard '/' := by decide
      have closing : IsHard '>' := by decide
      rw [tidy, render, render, if_neg named, if_neg tidyNamed]
      cases children with
      | nil =>
          simp only [List.isEmpty_nil, if_true, List.append_nil, List.cons_append,
            List.append_assoc]
          rw [cleanUp_cons opening, cleanUp_tagOf named own, cleanUp_cons slash,
            cleanUp_cons closing]
          rfl
      | cons child others =>
          have filled : (tidyForest [] (child :: others)).isEmpty = false := by
            rw [List.isEmpty_eq_false_iff]
            exact tidyForest_ne_nil [] (child :: others)
          have content := cleanUp_renderForest [] (child :: others) fun other member =>
            writable other (by simp [LabelledTree.labels, member])
          have name : ∀ c ∈ label.name.toList, IsHard c := by
            rw [Writable, if_neg named] at own
            exact fun c member => isHard_of_isNameChar (own.2.1.named c member)
          simp only [List.isEmpty_cons, filled, Bool.false_eq_true,
            if_false, List.append_nil, List.cons_append, List.append_assoc]
          rw [cleanUp_cons opening, cleanUp_tagOf named own, cleanUp_cons closing]
          simp only [List.flatMap_nil, List.nil_append] at content
          rw [content, cleanUp_cons opening, cleanUp_cons slash, cleanUp_hard_append name,
            List.nil_append, cleanUp_cons closing]
          rfl

theorem cleanUp_renderForest (pending : List Char) (forest : List XmlNode)
    (writable : ∀ label ∈ LabelledTree.forestLabels forest, Writable label)
    (rest : List Char) :
    cleanUp (pending.flatMap escapeText ++ (renderForest forest ++ '<' :: rest)) =
      renderForest (tidyForest pending forest) ++ cleanUp ('<' :: rest) := by
  have opening : IsHard '<' := by decide
  cases forest with
  | nil =>
      rw [renderForest, List.nil_append, cleanUp_append_cons opening,
        cleanUp_text, tidyForest]
      simp [renderForest, render, textNode]
  | cons tree forest =>
      have inTree : ∀ label ∈ tree.labels, Writable label := fun label member =>
        writable label (by simp [LabelledTree.forestLabels, member])
      have inForest : ∀ label ∈ LabelledTree.forestLabels forest, Writable label :=
        fun label member => writable label (by simp [LabelledTree.forestLabels, member])
      rw [renderForest, tidyForest]
      by_cases named : tree.label.name = "text"
      · have joined :=
          cleanUp_renderForest (pending ++ tree.label.content.toList) forest inForest
          rest
        rw [if_pos named, ← joined]
        cases tree with
        | node label children =>
            rw [LabelledTree.label_node] at named
            rw [render, if_pos named, List.flatMap_append]
            simp
      · have own := cleanUp_render tree named inTree (renderForest forest ++ '<' :: rest)
        have others := cleanUp_renderForest [] forest inForest rest
        rcases readsElement_render tree named inTree with ⟨body, rendered, _⟩
        rw [rendered] at own ⊢
        simp only [List.cons_append, List.append_assoc] at own ⊢
        rw [cleanUp_append_cons opening, own, cleanUp_text]
        rw [List.flatMap_nil, List.nil_append] at others
        rw [others, if_neg named]
        simp [renderForest, render, textNode]

end

/-! ## The tidied tree -/

section Labels

variable {Holds : XmlElement → Prop} {Good : Char → Prop}

/-- What holds of the elements and of the characters of a tree holds of the tidied one. -/
structure KeptByTidying (Holds : XmlElement → Prop) (Good : Char → Prop) : Prop where
  element : ∀ label, label.name ≠ "text" → Holds label → Holds (tidyElement label)
  text : ∀ chars : List Char, (∀ c ∈ chars, Good c) → Holds (textNode chars).label
  good : ∀ label, label.name = "text" → Holds label → ∀ c ∈ label.content.toList, Good c

theorem forall_labels_textNode (kept : KeptByTidying Holds Good) {pending : List Char}
    (good : ∀ c ∈ pending, Good c) :
    ∀ label ∈ (textNode (cleanUp pending)).labels, Holds label := by
  intro label member
  rw [textNode, LabelledTree.labels, LabelledTree.forestLabels,
    List.mem_singleton] at member
  rw [member]
  exact kept.text (cleanUp pending) fun c within => good c (mem_of_mem_cleanUp within)

mutual

theorem forall_labels_tidy (kept : KeptByTidying Holds Good) (tree : XmlNode)
    (named : tree.label.name ≠ "text") (holds : ∀ label ∈ tree.labels, Holds label) :
    ∀ label ∈ (tidy tree).labels, Holds label := by
  cases tree with
  | node label children =>
      rw [LabelledTree.labels, List.forall_mem_cons] at holds
      have content := forall_forestLabels_tidy kept children holds.2 [] (by simp)
      rw [tidy, LabelledTree.labels, List.forall_mem_cons]
      apply And.intro (kept.element label named holds.1)
      split
      · simp [LabelledTree.forestLabels]
      · exact content

theorem forall_forestLabels_tidy (kept : KeptByTidying Holds Good) (forest : List XmlNode)
    (holds : ∀ label ∈ LabelledTree.forestLabels forest, Holds label)
    (pending : List Char) (good : ∀ c ∈ pending, Good c) :
    ∀ label ∈ LabelledTree.forestLabels (tidyForest pending forest), Holds label := by
  have before := forall_labels_textNode kept good
  cases forest with
  | nil => simpa [tidyForest, LabelledTree.forestLabels] using before
  | cons tree forest =>
      rw [LabelledTree.forestLabels, List.forall_mem_append] at holds
      rw [tidyForest]
      split
      case isTrue named =>
        have own := holds.1 tree.label tree.label_mem_labels
        apply forall_forestLabels_tidy kept forest holds.2
        intro c member
        rw [List.mem_append] at member
        exact member.elim (good c) (kept.good tree.label named own c)
      case isFalse named =>
        have own := forall_labels_tidy kept tree named holds.1
        have rest := forall_forestLabels_tidy kept forest holds.2 [] (by simp)
        simp only [LabelledTree.forestLabels, List.forall_mem_append]
        exact ⟨before, own, rest⟩

end

end Labels

theorem keptByTidying_writable : KeptByTidying Writable fun c => isChar c = true where
  element label named writable := by
    rw [Writable, if_neg named] at writable
    rcases writable with ⟨empty, isName, distinct, properties⟩
    rw [Writable, if_neg (show (tidyElement label).name ≠ "text" from named)]
    refine ⟨empty, isName, ?_, ?_⟩
    · simpa [tidyElement, tidyProperty, Function.comp_def] using distinct
    · simp only [tidyElement, List.forall_mem_map]
      intro property member
      apply And.intro (properties property member).1
      intro c within
      rw [tidyProperty, String.toList_ofList] at within
      exact (properties property member).2 c (mem_of_mem_uniqueSpaces within)
  text chars valid := by
    rw [Writable, if_pos (show (textNode chars).label.name = "text" from rfl)]
    simpa [textNode] using valid
  good label named writable := by
    rw [Writable, if_pos named] at writable
    exact writable.2

theorem keptByTidying_blank : KeptByTidying OnlyBlankText fun c => isWhite c = true where
  element label named _ := fun isText => absurd isText named
  text chars white _ := isBlank_textNode white
  good label named blank := by
    have own := blank named
    simpa [isBlank, named] using own

mutual

theorem withoutBlank_tidy (tree : XmlNode) (named : tree.label.name ≠ "text")
    (blank : ∀ label ∈ tree.labels, OnlyBlankText label) :
    withoutBlank (tidy tree) = (withoutBlank tree).map tidyElement := by
  cases tree with
  | node label children =>
      have content := withoutBlankForest_tidy children
        (fun other member => blank other (by simp [LabelledTree.labels, member]))
        [] (by simp)
      rw [tidy, withoutBlank, withoutBlank, LabelledTree.map, ← content]
      cases children <;> rfl

theorem withoutBlankForest_tidy (forest : List XmlNode)
    (blank : ∀ label ∈ LabelledTree.forestLabels forest, OnlyBlankText label)
    (pending : List Char) (white : ∀ c ∈ pending, isWhite c = true) :
    withoutBlankForest (tidyForest pending forest) =
      LabelledTree.mapForest tidyElement (withoutBlankForest forest) := by
  have before : isBlank (textNode (cleanUp pending)).label = true :=
    isBlank_textNode fun c member => white c (mem_of_mem_cleanUp member)
  cases forest with
  | nil =>
      simp only [tidyForest, withoutBlankForest, if_pos before, LabelledTree.mapForest]
  | cons tree forest =>
      rw [LabelledTree.forestLabels, List.forall_mem_append] at blank
      rw [tidyForest, withoutBlankForest]
      by_cases named : tree.label.name = "text"
      · have own := blank.1 tree.label tree.label_mem_labels named
        have ownWhite : ∀ c ∈ tree.label.content.toList, isWhite c = true := by
          simpa [isBlank, named] using own
        rw [if_pos named, if_pos own]
        apply withoutBlankForest_tidy forest blank.2
        intro c member
        rw [List.mem_append] at member
        exact member.elim (white c) (ownWhite c)
      · have notBlank : isBlank tree.label = false := by simp [isBlank, named]
        have tidyNotBlank : isBlank (tidy tree).label = false := by
          cases tree
          exact notBlank
        have own := withoutBlank_tidy tree named blank.1
        have rest := withoutBlankForest_tidy forest blank.2 [] (by simp)
        rw [if_neg named, withoutBlankForest, if_pos before, withoutBlankForest]
        simp [notBlank, tidyNotBlank, own, rest, LabelledTree.mapForest]

end

/-! ## Values that tidying leaves alone -/

theorem length_uniqueSpaces_le (text : List Char) :
    (uniqueSpaces text).length ≤ text.length := by
  fun_induction uniqueSpaces text with
  | case1 first second rest _ induction => exact Nat.le_succ_of_le induction
  | case2 first second rest _ induction => exact Nat.succ_le_succ induction
  | case3 text _ => exact Nat.le_refl _

theorem uniqueSpaces_eq_self_iff (text : List Char) :
    uniqueSpaces text = text ↔ ¬ [' ', ' '] <:+: text := by
  fun_induction uniqueSpaces text with
  | case1 first second rest spaces induction =>
      rcases spaces with ⟨rfl, rfl⟩
      have shorter := length_uniqueSpaces_le (' ' :: rest)
      have there : [' ', ' '] <:+: ' ' :: ' ' :: rest := ⟨[], rest, rfl⟩
      simp only [there, not_true_eq_false, iff_false]
      intro equal
      rw [equal, List.length_cons, List.length_cons] at shorter
      omega
  | case2 first second rest apart induction =>
      rw [List.infix_cons_iff, not_or, ← induction]
      have notPrefix : ¬ [' ', ' '] <+: first :: second :: rest := by
        rintro ⟨more, equal⟩
        injection equal with sameFirst equal
        injection equal with sameSecond
        exact apart ⟨sameFirst.symm, sameSecond.symm⟩
      simp [notPrefix]
  | case3 text short =>
      match text with
      | [] => simp
      | [c] => simp [List.infix_cons_iff]
      | first :: second :: rest => exact absurd rfl (short first second rest)

theorem tidyElement_eq_self_iff (element : XmlElement) :
    tidyElement element = element ↔
      ∀ property ∈ element.properties, ¬ [' ', ' '] <:+: property.value.toList := by
  have values (property : XmlAttribute) :
      tidyProperty property = property ↔ ¬ [' ', ' '] <:+: property.value.toList := by
    rw [← uniqueSpaces_eq_self_iff]
    cases property with
    | mk name value =>
        simp only [tidyProperty, XmlAttribute.mk.injEq, true_and]
        rw [← String.toList_inj, String.toList_ofList]
  cases element with
  | mk name properties content =>
      simp only [tidyElement, XmlElement.mk.injEq, true_and, and_true]
      rw [← forall₂_congr fun property _ => values property]
      constructor
      · intro same
        exact List.map_inj_left.mp (same.trans (List.map_id' _).symm)
      · intro kept
        exact (List.map_congr_left kept).trans (List.map_id' _)

/-! ## The description -/

theorem isBlank_published (element : XmlElement) :
    isBlank element.published = isBlank element := by
  rw [XmlElement.published]
  split <;> rfl

theorem name_published (element : XmlElement) :
    element.published.name = element.name := by
  rw [XmlElement.published]
  split <;> rfl

theorem writable_published {element : XmlElement} (writable : Writable element) :
    Writable element.published := by
  rw [XmlElement.published]
  split
  · exact writable
  · rw [Writable] at writable ⊢
    by_cases named : element.name = "text"
    · rw [if_pos named] at writable
      rw [if_pos (show (element.without "value").name = "text" from named)]
      apply And.intro ?_ writable.2
      rw [XmlElement.without, writable.1, List.filter_nil]
    · rw [if_neg named] at writable
      rw [if_neg (show (element.without "value").name ≠ "text" from named)]
      rcases writable with ⟨empty, isName, distinct, properties⟩
      refine ⟨empty, isName, ?_, ?_⟩
      · exact distinct.sublist (List.filter_sublist.map _)
      · intro property member
        exact properties property (List.mem_of_mem_filter member)

def shown (tree : XmlNode) : XmlNode := tree.map XmlElement.published

theorem shown_named {tree : XmlNode} (named : tree.label.name ≠ "text") :
    (shown tree).label.name ≠ "text" := by
  rwa [shown, LabelledTree.label_map, name_published]

theorem shown_writable {tree : XmlNode}
    (writable : ∀ label ∈ tree.labels, Writable label) :
    ∀ label ∈ (shown tree).labels, Writable label := by
  rw [shown, LabelledTree.labels_map, List.forall_mem_map]
  exact fun label member => writable_published (writable label member)

theorem shown_blank {tree : XmlNode} (blank : ∀ label ∈ tree.labels,
      OnlyBlankText label) :
    ∀ label ∈ (shown tree).labels, OnlyBlankText label := by
  rw [shown, LabelledTree.labels_map, List.forall_mem_map]
  intro label member isText
  rw [name_published] at isText
  rw [isBlank_published]
  exact blank label member isText

theorem withoutBlank_shown (tree : XmlNode) :
    withoutBlank (shown tree) = (withoutBlank tree).map XmlElement.published :=
  withoutBlank_map isBlank_published tree

/-- libxml2 writes the documented document type and then the tree without formatting. -/
def DumpsPlainly [LibXml2Text] : Prop :=
  ∀ tree : XmlNode, tree.label.name ≠ "text" → (∀ label ∈ tree.labels, Writable label) →
    LibXml2Text.dumpMemory ⟨some tree⟩ =
      some (String.ofList (documentedProlog.toList ++ (render tree ++ ['\n'])))

set_option maxRecDepth 20000 in
theorem checked_tidied :
    (run start (cleanUp documentedProlog.toList)).any atStart = true :=
  holds_toList (show documentedProlog = _ from rfl)
    (fun chars => (run start (cleanUp chars)).any atStart = true) (by decide +kernel)

theorem parse_tidied {tree : XmlNode} (named : tree.label.name ≠ "text")
    (writable : ∀ label ∈ tree.labels, Writable label) :
    parse (cleanUp documentedProlog.toList ++ (render (tidy tree) ++ [])) =
      some (settle (tidy tree)) := by
  have tidyNamed : (tidy tree).label.name ≠ "text" := by rwa [label_tidy]
  have free : '\r' ∉ cleanUp documentedProlog.toList ++ [] := by
    rw [List.append_nil]
    exact fun member => checked_documented.2 (mem_of_mem_cleanUp member)
  exact parse_render (isProlog_of_checked checked_tidied) [] (by simp) free tidyNamed
    (forall_labels_tidy keptByTidying_writable tree named writable)

/-- Read back from its tidied text, a tree keeps its elements exactly when none of their values
has two spaces in a row. -/
theorem elements_kept_iff {tree : XmlNode} (named : tree.label.name ≠ "text")
    (blank : ∀ label ∈ tree.labels, OnlyBlankText label) :
    withoutBlank (settle (tidy tree)) = withoutBlank tree ↔
      ∀ element ∈ (withoutBlank tree).labels, ∀ property ∈ element.properties,
        ¬ [' ', ' '] <:+: property.value.toList := by
  have tidyBlank := forall_labels_tidy keptByTidying_blank tree named blank
  rw [withoutBlank_settle _ tidyBlank, withoutBlank_tidy tree named blank,
    LabelledTree.map_eq_self_iff]
  exact forall₂_congr fun element _ => tidyElement_eq_self_iff element

section Description

variable [LibXml2Text] (dumps : DumpsPlainly) {tree : XmlNode}
  (named : tree.label.name ≠ "text") (writable : ∀ label ∈ tree.labels, Writable label)
  (roundTrips : RoundTrips ⟨some tree⟩)

include dumps named writable roundTrips

theorem getXml_eq_render :
    (getXml (some ⟨some tree⟩)).2 = some (String.ofList
      (cleanUp documentedProlog.toList ++ (render (tidy (shown tree)) ++ []))) := by
  have distinct : ∀ element ∈ tree.labels, element.NamesDistinct := fun element member =>
    distinct_of_writable (writable element member)
  have opening : IsHard '<' := by decide
  have cleaned := cleanUp_render _ (shown_named named) (shown_writable writable) ['\n']
  rcases readsElement_render _ (shown_named named) (shown_writable writable) with
    ⟨body, rendered, _⟩
  rw [getXml_eq roundTrips, Option.map_some, removeValueAttribute_eq_published distinct,
    ← shown, dumps _ (shown_named named) (shown_writable writable)]
  simp only [String.toList_ofList]
  rw [rendered] at cleaned ⊢
  rw [List.cons_append, cleanUp_append_cons opening, ← List.cons_append, cleaned]
  rfl

theorem reads_description_iff (parsed : XmlNode) :
    (∃ text, (getXml (some ⟨some tree⟩)).2 = some text ∧
      parse text.toList = some parsed) ↔
      parsed = settle (tidy (shown tree)) := by
  have described := getXml_eq_render dumps named writable roundTrips
  have read := parse_tidied (shown_named named) (shown_writable writable)
  constructor
  · rintro ⟨text, gotten, reads⟩
    rw [described, Option.some.injEq] at gotten
    rw [← gotten, String.toList_ofList, read, Option.some.injEq] at reads
    exact reads.symm
  · intro same
    refine ⟨_, described, ?_⟩
    rw [String.toList_ofList, read, same]

/-- What a client reads in the description is the tree of the elements without their values
exactly when no value that is shown has two spaces in a row. -/
theorem description_keeps_content_iff
    (blank : ∀ label ∈ tree.labels, OnlyBlankText label) :
    (∃ parsed, (∃ text, (getXml (some ⟨some tree⟩)).2 = some text ∧
        parse text.toList = some parsed) ∧
        withoutBlank parsed = withoutBlank (tree.map XmlElement.published)) ↔
      ∀ element ∈ (withoutBlank tree).labels, ∀ property ∈ element.published.properties,
        ¬ [' ', ' '] <:+: property.value.toList := by
  have kept := elements_kept_iff (shown_named named) (shown_blank blank)
  rw [withoutBlank_shown, LabelledTree.labels_map, List.forall_mem_map,
    ← withoutBlank_shown] at kept
  rw [← kept]
  simp only [reads_description_iff dumps named writable roundTrips, exists_eq_left]
  rfl

end Description

section Examples

open scoped Reference

theorem dumpsPlainly_reference : DumpsPlainly := by
  intro tree named writable
  rfl

def dated (description : String) : XmlNode :=
  .node ⟨"context", [⟨"name", "local"⟩, ⟨"description", description⟩], ""⟩ [
    .node ⟨"text", [], "\n  "⟩ [],
    .node ⟨"device", [⟨"id", "iio:device0"⟩], ""⟩ [
      .node ⟨"attribute", [⟨"name", "raw"⟩, ⟨"value", "1  2"⟩], ""⟩ []]]

theorem writable_dated : ∀ description ∈ ["Fri Mar 13", "Fri Mar  3"],
    ∀ label ∈ (dated description).labels, Writable label := by
  decide +kernel

theorem blank_dated : ∀ description ∈ ["Fri Mar 13", "Fri Mar  3"],
    ∀ label ∈ (dated description).labels, OnlyBlankText label := by
  decide +kernel

theorem roundTrips_dated : ∀ description ∈ ["Fri Mar 13", "Fri Mar  3"],
    RoundTrips ⟨some (dated description)⟩ := by
  intro description member
  apply Reference.roundTrips
  · exact show "context" ≠ "text" by decide
  · exact writable_dated description member
  · revert description
    simp only [List.forall_mem_cons]
    exact ⟨rfl, rfl, by simp⟩

theorem two_digit_day_is_kept :
    ∃ parsed, (∃ text, (getXml (some ⟨some (dated "Fri Mar 13")⟩)).2 = some text ∧
        parse text.toList = some parsed) ∧
      withoutBlank parsed =
      withoutBlank ((dated "Fri Mar 13").map XmlElement.published) := by
  have named : (dated "Fri Mar 13").label.name ≠ "text" :=
    show "context" ≠ "text" by decide
  apply (description_keeps_content_iff dumpsPlainly_reference named
    (writable_dated _ (by decide)) (roundTrips_dated _ (by decide))
    (blank_dated _ (by decide))).mpr
  decide +kernel

/-- A day with one digit loses a space. -/
theorem one_digit_day_is_changed :
    ¬ ∃ parsed, (∃ text, (getXml (some ⟨some (dated "Fri Mar  3")⟩)).2 = some text ∧
        parse text.toList = some parsed) ∧
      withoutBlank parsed =
      withoutBlank ((dated "Fri Mar  3").map XmlElement.published) := by
  have named : (dated "Fri Mar  3").label.name ≠ "text" :=
    show "context" ≠ "text" by decide
  have blank := blank_dated "Fri Mar  3" (by decide)
  rintro ⟨parsed, reads, same⟩
  rw [reads_description_iff dumpsPlainly_reference named (writable_dated _ (by decide))
    (roundTrips_dated _ (by decide))] at reads
  rw [reads] at same
  have kept := (elements_kept_iff (shown_named named) (shown_blank blank)).mp same
  revert kept
  decide +kernel

end Examples

end IioEmu
