import Mathlib.Data.List.Basic

/-! # Labelled trees addressed by paths

A path lists child positions from the root and stands for a pointer into the
tree. Relabelling one node in place changes the label there and nothing else,
and any function of the labels that the relabelling leaves alone cannot see
it. -/

namespace IioEmu

inductive LabelledTree (Label : Type)
  | node (label : Label) (children : List (LabelledTree Label))

namespace LabelledTree

variable {Label Other : Type}

def label : LabelledTree Label → Label
  | node label _ => label

def children : LabelledTree Label → List (LabelledTree Label)
  | node _ children => children

@[simp] theorem label_node (value : Label) (trees : List (LabelledTree Label)) :
    (node value trees).label = value := rfl

@[simp] theorem children_node (value : Label) (trees : List (LabelledTree Label)) :
    (node value trees).children = trees := rfl

def descend (tree : LabelledTree Label) : List Nat → Option (LabelledTree Label)
  | [] => some tree
  | position :: path =>
      tree.children[position]?.bind fun child => child.descend path

@[simp] theorem descend_nil (tree : LabelledTree Label) : tree.descend
    [] = some tree := rfl

@[simp] theorem descend_cons (tree : LabelledTree Label) (position : Nat)
    (path : List Nat) :
    tree.descend (position :: path) =
      tree.children[position]?.bind fun child => child.descend path := rfl

theorem descend_append (tree : LabelledTree Label) (first second : List Nat) :
    tree.descend (first ++ second) =
      (tree.descend first).bind fun middle => middle.descend second := by
  induction first generalizing tree with
  | nil => rfl
  | cons position first induction =>
      rw [List.cons_append, descend_cons, descend_cons]
      cases tree.children[position]? with
      | none => rfl
      | some child => exact induction child

theorem descend_concat {tree parent : LabelledTree Label} {path : List Nat}
    (reached : tree.descend path = some parent) (position : Nat) :
    tree.descend (path ++ [position]) = parent.children[position]? := by
  rw [descend_append, reached]
  simp

/-! ## Relabelling one node -/

def modifyLabel (change : Label → Label) : List Nat → LabelledTree Label →
    LabelledTree Label
  | [], node label children => node (change label) children
  | position :: path, node label children =>
      node label (children.modify position (modifyLabel change path))

def labelAt (tree : LabelledTree Label) (path : List Nat) : Option Label :=
  (tree.descend path).map LabelledTree.label

theorem labelAt_cons (tree : LabelledTree Label) (position : Nat) (path : List Nat) :
    tree.labelAt (position :: path) =
      tree.children[position]?.bind fun child => child.labelAt path := by
  cases child : tree.children[position]? <;> simp [labelAt, child]

theorem labelAt_modifyLabel_self (change : Label → Label) (path : List Nat)
    (tree : LabelledTree Label) :
    (modifyLabel change path tree).labelAt path = (tree.labelAt path).map change := by
  induction path generalizing tree with
  | nil => cases tree; rfl
  | cons position path induction =>
      cases tree with
      | node label children =>
          rw [modifyLabel, labelAt_cons, labelAt_cons]
          simp only [children_node, List.getElem?_modify_eq]
          cases children[position]? with
          | none => rfl
          | some child => exact induction child

theorem labelAt_modifyLabel_of_ne (change : Label → Label) {path other : List Nat}
    (different : other ≠ path) (tree : LabelledTree Label) :
    (modifyLabel change path tree).labelAt other = tree.labelAt other := by
  induction path generalizing tree other with
  | nil =>
      cases tree with
      | node label children =>
          cases other with
          | nil => exact absurd rfl different
          | cons position other => rfl
  | cons position path induction =>
      cases tree with
      | node label children =>
          cases other with
          | nil => rfl
          | cons otherPosition other =>
              rw [modifyLabel, labelAt_cons, labelAt_cons]
              simp only [children_node]
              by_cases same : position = otherPosition
              · subst otherPosition
                have deeper : other ≠ path := by
                  intro equal
                  exact different (by rw [equal])
                rw [List.getElem?_modify_eq]
                cases children[position]? with
                | none => rfl
                | some child => exact induction deeper child
              · rw [List.getElem?_modify_ne _ _ same]

theorem modifyLabel_eq_self {change : Label → Label} {path : List Nat}
    {tree : LabelledTree Label} {label : Label} (found : tree.labelAt path = some label)
    (kept : change label = label) : modifyLabel change path tree = tree := by
  induction path generalizing tree with
  | nil =>
      cases tree with
      | node head children =>
          cases found
          exact congrArg (node · children) kept
  | cons position path induction =>
      cases tree with
      | node head children =>
          rw [labelAt_cons, Option.bind_eq_some_iff] at found
          rcases found with ⟨child, chosen, deeper⟩
          rw [modifyLabel]
          congr 1
          apply List.ext_getElem?
          intro index
          rw [List.getElem?_modify]
          by_cases same : position = index
          · subst same
            rw [children_node] at chosen
            simp [chosen, induction deeper]
          · simp [same]

/-! ## All labels -/

mutual

def labels : LabelledTree Label → List Label
  | node label children => label :: forestLabels children

def forestLabels : List (LabelledTree Label) → List Label
  | [] => []
  | tree :: forest => labels tree ++ forestLabels forest

end

theorem forestLabels_eq_flatMap (forest : List (LabelledTree Label)) :
    forestLabels forest = forest.flatMap labels := by
  induction forest with
  | nil => rfl
  | cons tree forest induction => rw [forestLabels, induction, List.flatMap_cons]

theorem mem_labels_of_labelAt {tree : LabelledTree Label} {path : List Nat}
    {label : Label} (found : tree.labelAt path = some label) : label ∈ tree.labels := by
  induction path generalizing tree with
  | nil =>
      cases tree with
      | node head children =>
          cases found
          simp [labels]
  | cons position path induction =>
      cases tree with
      | node head children =>
          rw [labelAt_cons, Option.bind_eq_some_iff] at found
          rcases found with ⟨child, chosen, deeper⟩
          rw [labels, forestLabels_eq_flatMap]
          apply List.mem_cons_of_mem
          apply List.mem_flatMap_of_mem (List.mem_of_getElem? chosen)
          exact induction deeper

theorem label_mem_labels (tree : LabelledTree Label) : tree.label ∈ tree.labels := by
  cases tree
  simp [labels]

theorem forall_forestLabels {Holds : Label → Prop} {forest : List (LabelledTree Label)} :
    (∀ label ∈ forestLabels forest, Holds label) ↔
      ∀ tree ∈ forest, ∀ label ∈ tree.labels, Holds label := by
  rw [forestLabels_eq_flatMap, List.forall_mem_flatMap]

theorem forall_labels_modifyLabel {Holds : Label → Prop} {change : Label → Label}
    (kept : ∀ label, Holds label → Holds (change label)) (path : List Nat)
    {tree : LabelledTree Label} (holds : ∀ label ∈ tree.labels, Holds label) :
    ∀ label ∈ (modifyLabel change path tree).labels, Holds label := by
  induction path generalizing tree with
  | nil =>
      cases tree with
      | node head children =>
          rw [labels, List.forall_mem_cons] at holds
          rw [modifyLabel, labels, List.forall_mem_cons]
          exact ⟨kept head holds.1, holds.2⟩
  | cons position path induction =>
      cases tree with
      | node head children =>
          rw [labels, List.forall_mem_cons, forall_forestLabels] at holds
          rw [modifyLabel, labels, List.forall_mem_cons, forall_forestLabels]
          apply And.intro holds.1
          intro child member
          rcases List.mem_iff_getElem?.mp member with ⟨index, chosen⟩
          rw [List.getElem?_modify] at chosen
          rw [Option.map_eq_map, Option.map_eq_some_iff] at chosen
          rcases chosen with ⟨old, there, equal⟩
          have oldHolds := holds.2 old (List.mem_of_getElem? there)
          by_cases same : position = index
          · rw [if_pos same] at equal
            exact equal ▸ induction oldHolds
          · rw [if_neg same] at equal
            exact equal ▸ oldHolds

/-! ## All subtrees -/

mutual

def subtrees : LabelledTree Label → List (LabelledTree Label)
  | node label children => node label children :: forestSubtrees children

def forestSubtrees : List (LabelledTree Label) → List (LabelledTree Label)
  | [] => []
  | tree :: forest => subtrees tree ++ forestSubtrees forest

end

theorem forestSubtrees_eq_flatMap (forest : List (LabelledTree Label)) :
    forestSubtrees forest = forest.flatMap subtrees := by
  induction forest with
  | nil => rfl
  | cons tree forest induction => rw [forestSubtrees, induction, List.flatMap_cons]

theorem mem_subtrees_self (tree : LabelledTree Label) : tree ∈ tree.subtrees := by
  cases tree
  simp [subtrees]

theorem mem_subtrees_of_mem_children {tree child : LabelledTree Label}
    (member : child ∈ tree.children) : child ∈ tree.subtrees := by
  cases tree with
  | node label children =>
      rw [subtrees, forestSubtrees_eq_flatMap]
      apply List.mem_cons_of_mem
      exact List.mem_flatMap_of_mem member (mem_subtrees_self child)

/-! ## Functions of the labels -/

mutual

def map (view : Label → Other) : LabelledTree Label → LabelledTree Other
  | node label children => node (view label) (mapForest view children)

def mapForest (view : Label → Other) :
    List (LabelledTree Label) → List (LabelledTree Other)
  | [] => []
  | tree :: forest => map view tree :: mapForest view forest

end

theorem mapForest_eq_map (view : Label → Other) (forest : List (LabelledTree Label)) :
    mapForest view forest = forest.map (map view) := by
  induction forest with
  | nil => rfl
  | cons tree forest induction => rw [mapForest, induction, List.map_cons]

@[simp] theorem label_map (view : Label → Other) (tree : LabelledTree Label) :
    (tree.map view).label = view tree.label := by
  cases tree
  rfl

@[simp] theorem children_map (view : Label → Other) (tree : LabelledTree Label) :
    (tree.map view).children = tree.children.map (map view) := by
  cases tree
  rw [map, children_node, mapForest_eq_map, children_node]

theorem descend_map (view : Label → Other) (tree : LabelledTree Label)
    (path : List Nat) :
    (tree.map view).descend path = (tree.descend path).map (map view) := by
  induction path generalizing tree with
  | nil => rfl
  | cons position path induction =>
      rw [descend_cons, descend_cons, children_map, List.getElem?_map]
      cases tree.children[position]? with
      | none => rfl
      | some child => exact induction child

/-- A view that the change of the label at a path does not show is the same before and
after a relabelling there. -/
theorem map_modifyLabel_at (view : Label → Other)
    (change : Label → Label) {path : List Nat} {tree : LabelledTree Label}
    (unseen : ∀ label,
      tree.labelAt path = some label → view (change label) = view label) :
    (modifyLabel change path tree).map view = tree.map view := by
  induction path generalizing tree with
  | nil =>
      cases tree with
      | node label children => simp [modifyLabel, map, unseen label rfl]
  | cons position path induction =>
      cases tree with
      | node label children =>
          rw [modifyLabel, map, map, mapForest_eq_map, mapForest_eq_map]
          congr 1
          apply List.ext_getElem?
          intro index
          rw [List.getElem?_map, List.getElem?_map, List.getElem?_modify]
          cases chosen : children[index]? with
          | none => rfl
          | some child =>
              by_cases same : position = index
              · have deeper : (modifyLabel change path child).map view = child.map view :=
                  induction fun label found =>
                    unseen label (by simp [labelAt_cons, same, chosen, found])
                simp [same, deeper]
              · simp [same]

/-- A view of the labels that a change leaves alone is the same before and
after a relabelling. -/
theorem map_modifyLabel (view : Label → Other) (change : Label → Label)
    (unseen : ∀ label, view (change label) = view label) (path : List Nat)
    (tree : LabelledTree Label) :
    (modifyLabel change path tree).map view = tree.map view :=
  map_modifyLabel_at view change fun label _ => unseen label

mutual

theorem map_congr {view other : Label → Other} (tree : LabelledTree Label)
    (agree : ∀ label ∈ tree.labels, view label = other label) :
    tree.map view = tree.map other := by
  cases tree with
  | node label children =>
      rw [map, map, agree label (by simp [labels])]
      rw [mapForest_congr children fun label member => agree label (by simp [labels, member])]

theorem mapForest_congr {view other : Label → Other} (forest : List (LabelledTree Label))
    (agree : ∀ label ∈ forestLabels forest, view label = other label) :
    mapForest view forest = mapForest other forest := by
  cases forest with
  | nil => rfl
  | cons tree forest =>
      rw [mapForest, mapForest,
        map_congr tree fun label member => agree label (by simp [forestLabels, member]),
        mapForest_congr forest fun label member =>
          agree label (by simp [forestLabels, member])]

end

mutual

theorem labels_map (view : Label → Other) (tree : LabelledTree Label) :
    (tree.map view).labels = tree.labels.map view := by
  cases tree with
  | node label children => rw [map, labels, labels, List.map_cons, forestLabels_mapForest]

theorem forestLabels_mapForest (view : Label → Other)
    (forest : List (LabelledTree Label)) :
    forestLabels (mapForest view forest) = (forestLabels forest).map view := by
  cases forest with
  | nil => rfl
  | cons tree forest =>
      rw [mapForest, forestLabels, forestLabels, List.map_append, labels_map,
        forestLabels_mapForest]

end

mutual

theorem map_eq_self {change : Label → Label} (tree : LabelledTree Label)
    (kept : ∀ label ∈ tree.labels, change label = label) : tree.map change = tree := by
  cases tree with
  | node label children =>
      rw [map, kept label (by simp [labels]),
        mapForest_eq_self children fun other member => kept other (by simp [labels, member])]

theorem mapForest_eq_self {change : Label → Label} (forest : List (LabelledTree Label))
    (kept : ∀ label ∈ forestLabels forest, change label = label) :
    mapForest change forest = forest := by
  cases forest with
  | nil => rfl
  | cons tree forest =>
      rw [mapForest,
        map_eq_self tree fun label member => kept label (by simp [forestLabels, member]),
        mapForest_eq_self forest fun label member =>
          kept label (by simp [forestLabels, member])]

end

theorem map_eq_self_iff {change : Label → Label} {tree : LabelledTree Label} :
    tree.map change = tree ↔ ∀ label ∈ tree.labels, change label = label := by
  constructor
  · intro same
    apply List.map_inj_left.mp
    rw [← labels_map, same, List.map_id']
  · exact map_eq_self tree

end LabelledTree

end IioEmu
