import IioEmu.Xml.Writer

/-! # The elements of a tree

White space between elements carries nothing. Without it, a tree whose only text is white
space is the tree of its elements. -/

namespace IioEmu.Xml

def isBlank (element : XmlElement) : Bool :=
  element.name == "text" && element.content.toList.all isWhite

mutual

def withoutBlank : XmlNode → XmlNode
  | .node label children => .node label (withoutBlankForest children)

def withoutBlankForest : List XmlNode → List XmlNode
  | [] => []
  | node :: nodes =>
      if isBlank node.label then withoutBlankForest nodes
      else withoutBlank node :: withoutBlankForest nodes

end

theorem withoutBlankForest_append (first second : List XmlNode) :
    withoutBlankForest (first ++ second) =
      withoutBlankForest first ++ withoutBlankForest second := by
  induction first with
  | nil => rfl
  | cons node first induction =>
      rw [List.cons_append, withoutBlankForest, withoutBlankForest, induction]
      split <;> rfl

def OnlyBlankText (element : XmlElement) : Prop := element.name = "text" →
    isBlank element = true

instance (element : XmlElement) : Decidable (OnlyBlankText element) :=
  inferInstanceAs (Decidable (_ → _))

/-! ## Views of the elements -/

mutual

theorem withoutBlank_map {view : XmlElement → XmlElement}
    (shows : ∀ element, isBlank (view element) = isBlank element) (tree : XmlNode) :
    withoutBlank (tree.map view) = (withoutBlank tree).map view := by
  cases tree with
  | node label children =>
      rw [LabelledTree.map, withoutBlank, withoutBlank, LabelledTree.map,
        withoutBlankForest_mapForest shows]

theorem withoutBlankForest_mapForest {view : XmlElement → XmlElement}
    (shows : ∀ element, isBlank (view element) = isBlank element)
    (forest : List XmlNode) :
    withoutBlankForest (LabelledTree.mapForest view forest) =
      LabelledTree.mapForest view (withoutBlankForest forest) := by
  cases forest with
  | nil => rfl
  | cons tree forest =>
      rw [LabelledTree.mapForest, withoutBlankForest, withoutBlankForest,
        LabelledTree.label_map, shows, withoutBlank_map shows,
        withoutBlankForest_mapForest shows]
      split <;> rfl

end

/-! ## Settling the text -/

theorem isBlank_textNode {text : List Char} (white : ∀ c ∈ text, isWhite c = true) :
    isBlank (textNode text).label = true := by
  simpa [isBlank, textNode] using white

theorem withoutBlankForest_settled {gathered : Gathered}
    (white : ∀ c ∈ gathered.pending, isWhite c = true) :
    withoutBlankForest gathered.settled = withoutBlankForest gathered.children := by
  rw [Gathered.settled]
  split
  · rfl
  · rw [withoutBlankForest_append, withoutBlankForest, if_pos (isBlank_textNode white),
      withoutBlankForest, List.append_nil]

theorem withoutBlankForest_gathered {nodes : List XmlNode}
    (blank : ∀ node ∈ nodes, OnlyBlankText node.label) (gathered : Gathered)
    (white : ∀ c ∈ gathered.pending, isWhite c = true) :
    withoutBlankForest (nodes.foldl Gathered.take gathered).settled =
      withoutBlankForest gathered.children ++ withoutBlankForest nodes := by
  induction nodes generalizing gathered with
  | nil => simp [withoutBlankForest_settled white, withoutBlankForest]
  | cons node nodes induction =>
      have rest (next : Gathered) (nextWhite : ∀ c ∈ next.pending, isWhite c = true) :=
        induction (fun other member => blank other (by simp [member])) next nextWhite
      rw [List.foldl_cons, Gathered.take]
      by_cases named : node.label.name = "text"
      · have ownBlank := blank node (by simp) named
        have ownWhite : ∀ c ∈ node.label.content.toList, isWhite c = true := by
          simpa [isBlank, named] using ownBlank
        rw [if_pos named, rest _ ?_, withoutBlankForest, if_pos ownBlank]
        intro c member
        rw [List.mem_append] at member
        exact member.elim (white c) (ownWhite c)
      · have notBlank : isBlank node.label = false := by simp [isBlank, named]
        have taken := rest ⟨gathered.settled ++ [node], []⟩ (by simp)
        rw [if_neg named, taken, withoutBlankForest_append,
          withoutBlankForest_settled white]
        simp [withoutBlankForest, notBlank]

mutual

theorem withoutBlank_settle (tree : XmlNode)
    (blank : ∀ label ∈ tree.labels, OnlyBlankText label) :
    withoutBlank (settle tree) = withoutBlank tree := by
  cases tree with
  | node label children =>
      rw [settle]
      split
      · rfl
      · have content := withoutBlankForest_settleForest children fun other member =>
          blank other (by simp [LabelledTree.labels, member])
        have settledBlank : ∀ node ∈ settleForest children, OnlyBlankText node.label := by
          rw [settleForest_eq_map, List.forall_mem_map]
          intro child member
          rw [label_settle]
          apply blank
          rw [LabelledTree.labels, LabelledTree.forestLabels_eq_flatMap]
          apply List.mem_cons_of_mem
          exact List.mem_flatMap_of_mem member child.label_mem_labels
        have gathered :=
          withoutBlankForest_gathered settledBlank .none (by simp [Gathered.none])
        rw [withoutBlank, withoutBlank, gathered, content]
        rfl

theorem withoutBlankForest_settleForest (forest : List XmlNode)
    (blank : ∀ label ∈ LabelledTree.forestLabels forest, OnlyBlankText label) :
    withoutBlankForest (settleForest forest) = withoutBlankForest forest := by
  cases forest with
  | nil => rfl
  | cons tree forest =>
      rw [settleForest, withoutBlankForest, withoutBlankForest, label_settle,
        withoutBlank_settle tree fun label member =>
          blank label (by simp [LabelledTree.forestLabels, member]),
        withoutBlankForest_settleForest forest fun label member =>
          blank label (by simp [LabelledTree.forestLabels, member])]

end

end IioEmu.Xml
