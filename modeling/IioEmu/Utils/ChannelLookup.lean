import IioEmu.Utils.AttributeLookup

/-! # Which channel a lookup finds

The search goes on past a mismatch without testing for the end of the list, so
its result depends on what follows the last mismatching node. -/

namespace IioEmu

namespace XmlElement

def suits (nodeName : String) (wanted : List (String × String)) (element : XmlElement) :
    Bool :=
  element.name == nodeName && !element.mismatches wanted

def isChannel (chn : String) (chOut : Bool) (element : XmlElement) : Bool :=
  element.name == "channel" && element.property? "id" == some chn &&
    element.property? "type" == some (directionName chOut)

theorem hasProperty_of_property? {element : XmlElement} {attrName attrValue : String}
    (holds : element.property? attrName = some attrValue) :
    element.hasProperty attrName attrValue := by
  rw [property?, Option.map_eq_some_iff] at holds
  rcases holds with ⟨property, found, rfl⟩
  have named := List.find?_some found
  rw [hasProperty, List.any_eq_true]
  exact ⟨property, List.mem_of_find?_eq_some found, by simpa using named⟩

theorem WellFormed.property?_eq_some_iff {element : XmlElement}
    (wellFormed : element.WellFormed) {attrName attrValue : String} :
    element.property? attrName = some attrValue ↔
      element.hasProperty attrName attrValue := by
  constructor
  · exact hasProperty_of_property?
  · intro has
    have present : (element.property? attrName).isSome := by
      rw [hasProperty, List.any_eq_true] at has
      rcases has with ⟨property, member, holds⟩
      rw [Bool.and_eq_true] at holds
      rw [property?, Option.isSome_map, List.find?_isSome]
      exact ⟨property, member, holds.1⟩
    rcases Option.isSome_iff_exists.mp present with ⟨value, holds⟩
    rw [holds, wellFormed.value_unique has (hasProperty_of_property? holds)]

theorem WellFormed.mismatches_eq_false {element : XmlElement}
    (wellFormed : element.WellFormed) {wanted : List (String × String)}
    (has : ∀ pair ∈ wanted, element.hasProperty pair.1 pair.2) :
    element.mismatches wanted = false := by
  rw [mismatches, List.any_eq_false]
  intro pair asked differs
  rw [List.any_eq_true] at differs
  rcases differs with ⟨property, member, other⟩
  rw [Bool.and_eq_true, beq_iff_eq, bne_iff_ne] at other
  have hasOther : element.hasProperty pair.1 property.value := by
    rw [hasProperty_iff, ← other.1]
    exact member
  exact other.2 (wellFormed.value_unique hasOther (has pair asked))

theorem suits_eq_isChannel {element : XmlElement}
    (carries : element.name = "channel" → element.WellFormed) (chn : String)
    (chOut : Bool) :
    element.suits "channel" [("id", chn), ("type", directionName chOut)] =
      element.isChannel chn chOut := by
  rw [Bool.eq_iff_iff]
  simp only [suits, isChannel, Bool.and_eq_true, beq_iff_eq, Bool.not_eq_true']
  constructor
  · intro suited
    have wellFormed := carries suited.1
    have asked := asked_of_not_mismatches wellFormed suited.1 suited.2
    rw [wellFormed.property?_eq_some_iff, wellFormed.property?_eq_some_iff]
    exact ⟨⟨suited.1, asked.1⟩, asked.2⟩
  · intro channel
    have wellFormed := carries channel.1.1
    apply And.intro channel.1.1
    apply wellFormed.mismatches_eq_false
    intro pair asked
    simp only [List.mem_cons, List.not_mem_nil, or_false] at asked
    rcases asked with rfl | rfl
    · exact hasProperty_of_property? channel.1.2
    · exact hasProperty_of_property? channel.2

end XmlElement

/-- The search finds the first node that passes its test. Without one it steps
past the end exactly when the last node has the name. -/
theorem searchNode_eq (nodeName : String) (wanted : List (String × String))
    (nodes : List XmlNode) (position : Nat) :
    searchNode nodeName wanted nodes position =
      match nodes.findIdx? fun node => node.label.suits nodeName wanted with
      | some index => .ok (some (index + position))
      | none =>
          if nodes.getLast?.all fun last => last.label.name == nodeName then
            .error .nullPointer
          else .ok none := by
  induction nodes generalizing position with
  | nil => rfl
  | cons node next induction =>
      rw [searchNode, induction, List.findIdx?_cons]
      by_cases named : node.label.name = nodeName
      · cases matched : node.label.mismatches wanted with
        | true =>
            -- the search jumps back behind the null test with the next node
            cases next with
            | nil => simp [XmlElement.suits, named, matched]
            | cons other rest =>
                simp only [XmlElement.suits, named, matched, List.getLast?_cons_cons]
                cases (other :: rest).findIdx? _ with
                | none => simp
                | some index => simp [Nat.add_comm 1, Nat.add_assoc]
        | false => simp [XmlElement.suits, named, matched]
      · cases next with
        | nil => simp [XmlElement.suits, named]
        | cons other rest =>
            simp only [XmlElement.suits, named,
              List.getLast?_cons_cons, List.isEmpty_cons]
            cases (other :: rest).findIdx? _ with
            | none => simp [named]
            | some index => simp [named, Nat.add_comm 1, Nat.add_assoc]

theorem getNodeNAttrs_eq {tree parent : XmlNode} {root : NodePointer}
    (reached : tree.descend root = some parent) (nodeName : String)
    (wanted : List (String × String)) :
    getNodeNAttrs tree root nodeName wanted =
      match parent.children.findIdx? fun node => node.label.suits nodeName wanted with
      | some position => .ok (some (root ++ [position]))
      | none =>
          if parent.children.getLast?.any fun last => last.label.name == nodeName then
            .error .nullPointer
          else .ok none := by
  simp only [getNodeNAttrs, reached, searchNode_eq]
  cases children : parent.children with
  | nil => rfl
  | cons node next =>
      rw [List.isEmpty_cons, List.getLast?_cons]
      cases (node :: next).findIdx? _ with
      | some position => rfl
      | none =>
          by_cases named :
            (next.getLast?.getD node).label.name = nodeName <;> simp [named]

theorem getNodeNAttrs_returns_iff {tree parent : XmlNode} {root : NodePointer}
    (reached : tree.descend root = some parent) (nodeName : String)
    (wanted : List (String × String)) :
    (∃ found, getNodeNAttrs tree root nodeName wanted = .ok found) ↔
      (∃ child ∈ parent.children, child.label.suits nodeName wanted) ∨
        ∀ last ∈ parent.children.getLast?, last.label.name ≠ nodeName := by
  rw [getNodeNAttrs_eq reached]
  cases searched : parent.children.findIdx? fun node => node.label.suits nodeName wanted with
  | some position =>
      have present : ∃ child ∈ parent.children, child.label.suits nodeName wanted := by
        have found : (parent.children.findIdx? fun node =>
            node.label.suits nodeName wanted).isSome := by
          rw [searched]
          rfl
        rwa [List.findIdx?_isSome, List.any_eq_true] at found
      simp [present]
  | none =>
      have absent : ¬ ∃ child ∈ parent.children, child.label.suits nodeName wanted := by
        rw [List.findIdx?_eq_none_iff] at searched
        rintro ⟨child, member, suited⟩
        rw [searched child member] at suited
        cases suited
      simp only [absent, false_or]
      cases parent.children.getLast? with
      | none => simp
      | some last => by_cases named : last.label.name = nodeName <;> simp [named]

theorem getNodeNAttrs_of_ok {tree parent : XmlNode} {root : NodePointer}
    (reached : tree.descend root = some parent) {nodeName : String}
    {wanted : List (String × String)} {found : Option NodePointer}
    (returned : getNodeNAttrs tree root nodeName wanted = .ok found) :
    found = (parent.children.findIdx? fun node => node.label.suits nodeName wanted).map
      fun position => root ++ [position] := by
  rw [getNodeNAttrs_eq reached] at returned
  cases searched : parent.children.findIdx? fun node => node.label.suits nodeName wanted with
  | some position =>
      rw [searched, Except.ok.injEq] at returned
      exact returned.symm
  | none =>
      simp only [searched] at returned
      split at returned
      · cases returned
      · cases returned
        rfl

/-! ## The lookup of a channel -/

theorem findIdx?_congr {α : Type} {values : List α} {first second : α → Bool}
    (agree : ∀ value ∈ values, first value = second value) :
    values.findIdx? first = values.findIdx? second := by
  induction values with
  | nil => rfl
  | cons value rest induction =>
      rw [List.findIdx?_cons, List.findIdx?_cons, agree value (by simp),
        induction fun other member => agree other (by simp [member])]

/-- The lookup returns the first channel with the id and the direction, or null
where there is none, exactly when there is one or the last child is no channel. -/
theorem channel_lookup_exact_iff {tree device : XmlNode} {nodeDevice : NodePointer}
    (reached : tree.descend nodeDevice = some device)
    (carries : ∀ child ∈ device.children, child.label.name = "channel" →
      child.label.WellFormed)
    (chn : String) (chOut : Bool) :
    getNodeNAttrs tree nodeDevice "channel" [("id", chn), ("type", directionName chOut)] =
        .ok ((device.children.findIdx? fun child => child.label.isChannel chn chOut).map
          fun position => nodeDevice ++ [position]) ↔
      (∃ child ∈ device.children, child.label.isChannel chn chOut) ∨
        ∀ last ∈ device.children.getLast?, last.label.name ≠ "channel" := by
  have agree : ∀ child ∈ device.children,
      child.label.suits "channel" [("id", chn), ("type", directionName chOut)] =
        child.label.isChannel chn chOut :=
    fun child member => XmlElement.suits_eq_isChannel (carries child member) chn chOut
  have present : (∃ child ∈ device.children, child.label.suits "channel"
        [("id", chn), ("type", directionName chOut)]) ↔
      ∃ child ∈ device.children, child.label.isChannel chn chOut := by
    apply exists_congr
    intro child
    apply and_congr_right
    intro member
    rw [agree child member]
  rw [← present, ← getNodeNAttrs_returns_iff reached, ← findIdx?_congr agree]
  constructor
  · exact fun returned => ⟨_, returned⟩
  · rintro ⟨found, returned⟩
    rw [returned, getNodeNAttrs_of_ok reached returned]

/-- A device whose only child is another channel, and no text after it. -/
theorem lookup_past_last_channel :
    let device : XmlNode := .node ⟨"device", [⟨"id", "iio:device0"⟩], ""⟩ [
      .node ⟨"channel", [⟨"id", "voltage0"⟩, ⟨"type", "input"⟩], ""⟩ []]
    getNodeNAttrs device [] "channel" [("id", "voltage1"),
      ("type", directionName false)] =
        .error .nullPointer ∧
      ¬ getNodeNAttrs device [] "channel" [("id", "voltage1"),
        ("type", directionName false)] = .ok ((device.children.findIdx? fun child =>
          child.label.isChannel "voltage1" false).map
          fun position => [] ++ [position]) := by
  intro device
  have stepsOff : getNodeNAttrs device [] "channel"
      [("id", "voltage1"), ("type", directionName false)] = .error .nullPointer := rfl
  apply And.intro stepsOff
  intro returned
  rw [stepsOff] at returned
  cases returned

theorem lookup_of_last_channel :
    let device : XmlNode := .node ⟨"device", [⟨"id", "iio:device0"⟩], ""⟩ [
      .node ⟨"channel", [⟨"id", "voltage0"⟩, ⟨"type", "input"⟩], ""⟩ []]
    getNodeNAttrs device [] "channel" [("id", "voltage0"),
      ("type", directionName false)] =
      .ok ((device.children.findIdx? fun child => child.label.isChannel "voltage0" false).map
        fun position => [] ++ [position]) := by
  intro device
  apply (channel_lookup_exact_iff (show device.descend [] = some device from rfl)
    (by decide) "voltage0" false).mpr
  exact Or.inl ⟨_, List.mem_cons_self, by decide⟩

end IioEmu
