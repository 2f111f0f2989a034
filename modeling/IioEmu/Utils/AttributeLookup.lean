import Mathlib.Data.List.Nodup
import IioEmu.Utils.XmlUtils

/-! # Where an attribute is found

A key names an attribute of a device or of a channel, and a lookup takes it to a
node. The lookups never look at a property named `value`, and in a well-formed
document they take different keys to different nodes. -/

namespace IioEmu

inductive AttributeKey
  | device (deviceId : String) (type : IioAttrType) (attr : String)
  | channel (deviceId chn : String) (chOut : Bool) (attr : String)
  deriving DecidableEq

namespace AttributeKey

def lookup (doc : Option XmlDoc) : AttributeKey → Outcome (Option NodePointer)
  | .device deviceId type attr => .ok (getDeviceAttr doc deviceId type attr)
  | .channel deviceId chn chOut attr => getChannelAttr doc chn deviceId attr chOut

theorem lookup_none (key : AttributeKey) : key.lookup none = .ok none := by
  cases key <;> rfl

end AttributeKey

theorem searchNode_noThrow (nodeName : String) (wanted : List (String × String))
    (nodes : List XmlNode) (position : Nat) :
    Outcome.NoThrow (searchNode nodeName wanted nodes position) := by
  induction nodes generalizing position with
  | nil => exact Outcome.noThrow_error rfl
  | cons node next induction =>
      rw [searchNode]
      split
      · split
        · exact induction _
        · exact Outcome.noThrow_ok _
      · split
        · exact Outcome.noThrow_ok _
        · exact induction _

theorem getNodeNAttrs_noThrow (tree : XmlNode) (root : NodePointer) (nodeName : String)
    (wanted : List (String × String)) :
    Outcome.NoThrow (getNodeNAttrs tree root nodeName wanted) := by
  rw [getNodeNAttrs]
  split
  · exact Outcome.noThrow_error rfl
  · split
    · exact Outcome.noThrow_ok _
    · exact (searchNode_noThrow _ _ _ _).bind fun _ => Outcome.noThrow_ok _

theorem AttributeKey.lookup_noThrow (doc : Option XmlDoc) (key : AttributeKey) :
    Outcome.NoThrow (key.lookup doc) := by
  cases key with
  | device => exact Outcome.noThrow_ok _
  | channel deviceId chn chOut attr =>
      rw [lookup, getChannelAttr]
      split
      · exact Outcome.noThrow_ok _
      · split
        · exact Outcome.noThrow_ok _
        · apply (getNodeNAttrs_noThrow _ _ _ _).bind
          intro found
          cases found <;> exact Outcome.noThrow_ok _

/-! ## The lookups do not see values -/

def XmlDoc.withoutValues (document : XmlDoc) : XmlDoc where
  root := document.root.map (LabelledTree.map (XmlElement.without "value"))

namespace XmlElement

theorem hasProperty_without {attrName removed : String} (different : attrName ≠ removed)
    (element : XmlElement) (attrValue : String) :
    (element.without removed).hasProperty attrName attrValue =
      element.hasProperty attrName attrValue := by
  simp only [hasProperty, without, List.any_filter]
  congr 1
  funext property
  by_cases same : property.name = removed
  · simp [same, Ne.symm different]
  · simp [same]

theorem mismatches_without {removed : String} {wanted : List (String × String)}
    (different : ∀ pair ∈ wanted, pair.1 ≠ removed) (element : XmlElement) :
    (element.without removed).mismatches wanted = element.mismatches wanted := by
  simp only [mismatches, without, List.any_filter]
  rw [Bool.eq_iff_iff, List.any_eq_true, List.any_eq_true]
  apply exists_congr
  intro pair
  apply and_congr_right
  intro member
  apply Eq.congr_left
  congr 1
  funext property
  by_cases same : property.name = removed
  · simp [same, Ne.symm (different pair member)]
  · simp [same]

end XmlElement

section Views

variable {removed : String}

theorem getNode_map (tree : XmlNode) (root : NodePointer) (nodeName : String)
    {attrName : String} (different : attrName ≠ removed) (attrValue : String) :
    getNode (tree.map (XmlElement.without removed)) root nodeName attrName attrValue =
      getNode tree root nodeName attrName attrValue := by
  simp only [getNode, LabelledTree.descend_map]
  cases tree.descend root with
  | none => rfl
  | some parent =>
      simp only [Option.map_some, Option.bind_eq_bind, Option.bind_some,
        LabelledTree.children_map, List.findIdx?_map]
      congr 2
      funext node
      simp only [Function.comp_apply, LabelledTree.label_map,
        XmlElement.hasProperty_without different]
      rfl

theorem searchNode_map (nodeName : String) {wanted : List (String × String)}
    (different : ∀ pair ∈ wanted, pair.1 ≠ removed)
    (nodes : List XmlNode) (position : Nat) :
    searchNode nodeName wanted (nodes.map (LabelledTree.map (XmlElement.without removed)))
      position = searchNode nodeName wanted nodes position := by
  induction nodes generalizing position with
  | nil => rfl
  | cons node next induction =>
      simp only [List.map_cons, searchNode, LabelledTree.label_map,
        XmlElement.mismatches_without different, induction, List.isEmpty_map]
      rfl

theorem getNodeNAttrs_map (tree : XmlNode) (root : NodePointer) (nodeName : String)
    {wanted : List (String × String)} (different : ∀ pair ∈ wanted, pair.1 ≠ removed) :
    getNodeNAttrs (tree.map (XmlElement.without removed)) root nodeName wanted =
      getNodeNAttrs tree root nodeName wanted := by
  simp only [getNodeNAttrs, LabelledTree.descend_map]
  cases tree.descend root with
  | none => rfl
  | some parent =>
      simp only [Option.map_some, LabelledTree.children_map, List.isEmpty_map,
        searchNode_map nodeName different]

end Views

namespace AttributeKey

theorem lookup_withoutValues (doc : Option XmlDoc) (key : AttributeKey) :
    key.lookup (doc.map XmlDoc.withoutValues) = key.lookup doc := by
  cases doc with
  | none => rfl
  | some document =>
      cases document with
      | mk root =>
          cases root with
          | none => cases key <;> rfl
          | some tree =>
              cases key with
              | device deviceId type attr =>
                  simp only [lookup, getDeviceAttr, XmlDoc.withoutValues, Option.map_some,
                    Option.bind_eq_bind, Option.bind_some,
                    getNode_map _ _ _ (show "id" ≠ "value" by decide),
                    getNode_map _ _ _ (show "name" ≠ "value" by decide)]
              | channel deviceId chn chOut attr =>
                  have different : ∀ pair ∈ [("id", chn), ("type", directionName chOut)],
                      pair.1 ≠ "value" := by simp
                  simp only [lookup, getChannelAttr,
                    XmlDoc.withoutValues, Option.map_some, Option.bind_eq_bind,
                    Option.bind_some, getNodeNAttrs_map _ _ _ different,
                    getNode_map _ _ _ (show "id" ≠ "value" by decide),
                    getNode_map _ _ _ (show "name" ≠ "value" by decide)]

end AttributeKey

/-! ## Different keys, different nodes -/

namespace XmlElement

/-- The property names are distinct, and a channel has an id and a type. -/
def WellFormed (element : XmlElement) : Prop :=
  (element.properties.map XmlAttribute.name).Nodup ∧
    (element.name = "channel" →
      (element.property? "id").isSome ∧ (element.property? "type").isSome)

instance (element : XmlElement) : Decidable element.WellFormed := by
  unfold WellFormed
  infer_instance

theorem hasProperty_iff {element : XmlElement} {attrName attrValue : String} :
    element.hasProperty attrName attrValue ↔ ⟨attrName,
      attrValue⟩ ∈ element.properties := by
  simp only [hasProperty, List.any_eq_true, Bool.and_eq_true, beq_iff_eq]
  constructor
  · rintro ⟨property, member, rfl, rfl⟩
    exact member
  · intro member
    exact ⟨_, member, rfl, rfl⟩

theorem WellFormed.value_unique {element : XmlElement} (wellFormed : element.WellFormed)
    {attrName first second : String} (hasFirst : element.hasProperty attrName first)
    (hasSecond : element.hasProperty attrName second) : first = second := by
  rw [hasProperty_iff] at hasFirst hasSecond
  have same := List.inj_on_of_nodup_map wellFormed.1 hasFirst hasSecond rfl
  injection same

theorem hasProperty_of_not_mismatches {element : XmlElement}
    {wanted : List (String × String)} (matched : element.mismatches wanted = false)
    {attrName attrValue : String} (asked : (attrName, attrValue) ∈ wanted)
    (present : (element.property? attrName).isSome) :
    element.hasProperty attrName attrValue := by
  rw [property?, Option.isSome_map, List.find?_isSome] at present
  rcases present with ⟨property, member, named⟩
  rw [mismatches, List.any_eq_false] at matched
  have agrees := matched _ asked
  rw [Bool.not_eq_true, List.any_eq_false] at agrees
  have equal := agrees property member
  simp only [named, Bool.true_and, bne_iff_ne, ne_eq, Decidable.not_not] at equal
  rw [hasProperty, List.any_eq_true]
  exact ⟨property, member, by simp [named, equal]⟩

end XmlElement

def WellFormed (doc : Option XmlDoc) : Prop :=
  ∀ document ∈ doc, ∀ tree ∈ document.root, ∀ element ∈ tree.labels, element.WellFormed

instance (doc : Option XmlDoc) : Decidable (WellFormed doc) := by
  unfold WellFormed
  infer_instance

theorem getNode_eq_some {tree : XmlNode} {root nodePointer : NodePointer}
    {nodeName attrName attrValue : String}
    (found : getNode tree root nodeName attrName attrValue = some nodePointer) :
    ∃ position element, nodePointer = root ++ [position] ∧
      tree.labelAt nodePointer = some element ∧ element.name = nodeName ∧
      element.hasProperty attrName attrValue := by
  simp only [getNode, Option.bind_eq_bind, Option.bind_eq_some_iff, Option.pure_def,
    Option.some.injEq] at found
  rcases found with ⟨parent, reached, position, chosen, rfl⟩
  rw [List.findIdx?_eq_some_iff_getElem] at chosen
  rcases chosen with ⟨inside, suits, _⟩
  simp only [Bool.and_eq_true, beq_iff_eq] at suits
  refine ⟨position, parent.children[position].label, rfl, ?_, suits.1, suits.2⟩
  rw [LabelledTree.labelAt, LabelledTree.descend_concat reached,
    List.getElem?_eq_getElem inside, Option.map_some]

theorem searchNode_eq_some {nodeName : String} {wanted : List (String × String)}
    {nodes : List XmlNode} {start position : Nat}
    (found : searchNode nodeName wanted nodes start = .ok (some position)) :
    start ≤ position ∧ ∃ node, nodes[position - start]? = some node ∧
      node.label.name = nodeName ∧ node.label.mismatches wanted = false := by
  induction nodes generalizing start with
  | nil => cases found
  | cons node next induction =>
      have later (searched : searchNode nodeName wanted next (start + 1) =
          .ok (some position)) :
          start ≤ position ∧ ∃ other, (node :: next)[position - start]? = some other ∧
            other.label.name = nodeName ∧ other.label.mismatches wanted = false := by
        have reached := induction searched
        have offset : position - start = position - (start + 1) + 1 := by omega
        rw [offset, List.getElem?_cons_succ]
        exact ⟨by omega, reached.2⟩
      rw [searchNode] at found
      split at found
      case isTrue named =>
        split at found
        case isTrue => exact later found
        case isFalse matched =>
          cases found
          exact ⟨Nat.le_refl _, node, by simp, named, by simpa using matched⟩
      case isFalse =>
        split at found
        case isTrue => cases found
        case isFalse => exact later found

theorem getNodeNAttrs_eq_some {tree : XmlNode} {root nodePointer : NodePointer}
    {nodeName : String} {wanted : List (String × String)}
    (found : getNodeNAttrs tree root nodeName wanted = .ok (some nodePointer)) :
    ∃ position element, nodePointer = root ++ [position] ∧
      tree.labelAt nodePointer = some element ∧ element.name = nodeName ∧
      element.mismatches wanted = false := by
  rw [getNodeNAttrs] at found
  cases reached : tree.descend root with
  | none => simp [reached] at found
  | some parent =>
      simp only [reached] at found
      split at found
      case isTrue => cases found
      case isFalse =>
        rw [Outcome.bind_eq_ok] at found
        rcases found with ⟨chosen, searched, equal⟩
        cases chosen with
        | none => cases equal
        | some position =>
            cases equal
            rcases searchNode_eq_some searched with ⟨_, node, located, named, matched⟩
            refine ⟨position, node.label, rfl, ?_, named, matched⟩
            rw [LabelledTree.labelAt, LabelledTree.descend_concat reached]
            rw [Nat.sub_zero] at located
            rw [located, Option.map_some]

def Located (tree : XmlNode) (nodePointer : NodePointer) : AttributeKey → Prop
  | .device deviceId type attr =>
      ∃ device position nodeDevice nodeAttr, nodePointer = [device, position] ∧
        tree.labelAt [device] = some nodeDevice ∧ nodeDevice.hasProperty "id" deviceId ∧
        tree.labelAt [device, position] = some nodeAttr ∧
        nodeAttr.name = type.nodeName ∧ nodeAttr.hasProperty "name" attr
  | .channel deviceId chn chOut attr =>
      ∃ device channel position nodeDevice nodeChannel nodeAttr,
        nodePointer = [device, channel, position] ∧
        tree.labelAt [device] = some nodeDevice ∧ nodeDevice.hasProperty "id" deviceId ∧
        tree.labelAt [device, channel] = some nodeChannel ∧ nodeChannel.name = "channel" ∧
        nodeChannel.mismatches [("id", chn), ("type", directionName chOut)] = false ∧
        tree.labelAt [device, channel, position] = some nodeAttr ∧
        nodeAttr.hasProperty "name" attr

theorem Located.labelAt {tree : XmlNode} {nodePointer : NodePointer} {key : AttributeKey}
    (located : Located tree nodePointer key) :
    ∃ element, tree.labelAt nodePointer = some element := by
  cases key with
  | device =>
      rcases located with ⟨_, _, _, nodeAttr, rfl, _, _, atAttr, _⟩
      exact ⟨nodeAttr, atAttr⟩
  | channel =>
      rcases located with ⟨_, _, _, _, _, nodeAttr, rfl, _, _, _, _, _, atAttr, _⟩
      exact ⟨nodeAttr, atAttr⟩

theorem located_device {tree : XmlNode} {deviceId attr : String} {type : IioAttrType}
    {nodeDevice nodePointer : NodePointer}
    (foundDevice : getNode tree [] "device" "id" deviceId = some nodeDevice)
    (foundAttr : getNode tree nodeDevice type.nodeName "name" attr = some nodePointer) :
    Located tree nodePointer (.device deviceId type attr) := by
  rcases getNode_eq_some foundDevice with ⟨device, deviceElement, rfl, atDevice, _, hasId⟩
  rcases getNode_eq_some foundAttr with ⟨position, nodeAttr, rfl, atAttr, named, hasName⟩
  exact ⟨device, position, deviceElement, nodeAttr, rfl, atDevice, hasId, atAttr, named,
    hasName⟩

theorem located_channel {tree : XmlNode} {deviceId chn attr : String} {chOut : Bool}
    {nodeDevice nodeChannel nodePointer : NodePointer}
    (foundDevice : getNode tree [] "device" "id" deviceId = some nodeDevice)
    (foundChannel : getNodeNAttrs tree nodeDevice "channel"
      [("id", chn), ("type", directionName chOut)] = .ok (some nodeChannel))
    (foundAttr : getNode tree nodeChannel "attribute" "name" attr = some nodePointer) :
    Located tree nodePointer (.channel deviceId chn chOut attr) := by
  rcases getNode_eq_some foundDevice with ⟨device, deviceElement, rfl, atDevice, _, hasId⟩
  rcases getNodeNAttrs_eq_some foundChannel with
    ⟨channel, channelElement, rfl, atChannel, named, matched⟩
  rcases getNode_eq_some foundAttr with ⟨position, nodeAttr, rfl, atAttr, _, hasName⟩
  exact ⟨device, channel, position, deviceElement, channelElement,
    nodeAttr, rfl, atDevice, hasId, atChannel, named, matched, atAttr, hasName⟩

def Searched (tree : XmlNode) (nodePointer : NodePointer) : AttributeKey → Prop
  | .device deviceId type attr =>
      ∃ nodeDevice, getNode tree [] "device" "id" deviceId = some nodeDevice ∧
        getNode tree nodeDevice type.nodeName "name" attr = some nodePointer
  | .channel deviceId chn chOut attr =>
      ∃ nodeDevice nodeChannel, getNode tree [] "device" "id" deviceId = some nodeDevice ∧
        getNodeNAttrs tree nodeDevice "channel"
          [("id", chn), ("type", directionName chOut)] = .ok (some nodeChannel) ∧
        getNode tree nodeChannel "attribute" "name" attr = some nodePointer

theorem searched_of_lookup {doc : Option XmlDoc} {key : AttributeKey}
    {nodePointer : NodePointer} (found : key.lookup doc = .ok (some nodePointer)) :
    ∃ tree, doc >>= XmlDoc.root = some tree ∧ Searched tree nodePointer key := by
  cases key with
  | device deviceId type attr =>
      simp only [AttributeKey.lookup, getDeviceAttr, Option.bind_eq_bind, Except.ok.injEq,
        Option.bind_eq_some_iff] at found
      rcases found with ⟨document, opened, tree, rooted, nodeDevice,
        foundDevice, foundAttr⟩
      refine ⟨tree, ?_, nodeDevice, foundDevice, foundAttr⟩
      rw [opened]
      exact rooted
  | channel deviceId chn chOut attr =>
      rw [AttributeKey.lookup, getChannelAttr] at found
      cases rooted : doc >>= XmlDoc.root with
      | none => simp [rooted] at found
      | some tree =>
          refine ⟨tree, rfl, ?_⟩
          cases foundDevice : getNode tree [] "device" "id" deviceId with
          | none => simp [rooted, foundDevice] at found
          | some nodeDevice =>
              simp only [rooted, foundDevice, Outcome.bind_eq_ok] at found
              rcases found with ⟨foundChannel, searched, foundAttr⟩
              cases foundChannel with
              | none => cases foundAttr
              | some nodeChannel =>
                  injection foundAttr with foundAttr
                  exact ⟨nodeDevice, nodeChannel, foundDevice, searched, foundAttr⟩

theorem located_of_lookup {doc : Option XmlDoc} {key : AttributeKey}
    {nodePointer : NodePointer} (found : key.lookup doc = .ok (some nodePointer)) :
    ∃ tree, doc >>= XmlDoc.root = some tree ∧ Located tree nodePointer key := by
  rcases searched_of_lookup found with ⟨tree, rooted, searched⟩
  refine ⟨tree, rooted, ?_⟩
  cases key with
  | device deviceId type attr =>
      rcases searched with ⟨nodeDevice, foundDevice, foundAttr⟩
      exact located_device foundDevice foundAttr
  | channel deviceId chn chOut attr =>
      rcases searched with ⟨nodeDevice, nodeChannel, foundDevice, foundChannel, foundAttr⟩
      exact located_channel foundDevice foundChannel foundAttr

theorem IioAttrType.nodeName_injective : Function.Injective IioAttrType.nodeName := by
  intro first second
  cases first <;> cases second <;> simp [IioAttrType.nodeName]

theorem directionName_injective : Function.Injective directionName := by
  intro first second
  cases first <;> cases second <;> simp [directionName]

/-- The keys that resolve go to nodes of their own. -/
def Separates (doc : Option XmlDoc) : Prop :=
  ∀ (key other : AttributeKey) (nodePointer : NodePointer),
    key.lookup doc = .ok (some nodePointer) → other.lookup doc = .ok (some nodePointer) →
      key = other

section Unique

variable {tree : XmlNode} {nodePointer : NodePointer}

theorem located_device_unique
    (checked : ∀ path element, tree.labelAt path = some element → element.WellFormed)
    {deviceId otherId attr otherAttr : String} {type otherType : IioAttrType}
    (located : Located tree nodePointer (.device deviceId type attr))
    (otherLocated : Located tree nodePointer (.device otherId otherType otherAttr)) :
    AttributeKey.device deviceId type attr = .device otherId otherType otherAttr := by
  rcases located with ⟨device, position, nodeDevice, nodeAttr, rfl,
    atDevice, hasId, atAttr, named, hasName⟩
  rcases otherLocated with ⟨_, _, otherDevice, otherNode, samePath, atOther, otherHasId,
    atOtherAttr, otherNamed, otherHasName⟩
  cases samePath
  cases atDevice.symm.trans atOther
  cases atAttr.symm.trans atOtherAttr
  have sameId := (checked _ _ atDevice).value_unique hasId otherHasId
  have sameType := IioAttrType.nodeName_injective (named.symm.trans otherNamed)
  have sameName := (checked _ _ atAttr).value_unique hasName otherHasName
  rw [sameId, sameType, sameName]

theorem asked_of_not_mismatches {element : XmlElement} (wellFormed : element.WellFormed)
    (named : element.name = "channel") {chn : String} {chOut : Bool}
    (matched : element.mismatches [("id", chn), ("type", directionName chOut)] = false) :
    element.hasProperty "id" chn ∧ element.hasProperty "type" (directionName chOut) := by
  have carries := wellFormed.2 named
  constructor
  · apply XmlElement.hasProperty_of_not_mismatches matched ?_ carries.1
    simp
  · apply XmlElement.hasProperty_of_not_mismatches matched ?_ carries.2
    simp

theorem located_channel_unique
    (checked : ∀ path element, tree.labelAt path = some element → element.WellFormed)
    {deviceId otherId chn otherChn attr otherAttr : String} {chOut otherOut : Bool}
    (located : Located tree nodePointer (.channel deviceId chn chOut attr))
    (otherLocated : Located tree nodePointer (.channel otherId otherChn otherOut otherAttr)) :
    AttributeKey.channel deviceId chn chOut attr =
      .channel otherId otherChn otherOut otherAttr := by
  rcases located with ⟨device, channel, position, nodeDevice, nodeChannel, nodeAttr, rfl,
    atDevice, hasId, atChannel, named, matched, atAttr, hasName⟩
  rcases otherLocated with ⟨_, _, _, otherDevice, otherChannel,
    otherNode, samePath, atOther, otherHasId, atOtherChannel, _, otherMatched,
    atOtherAttr, otherHasName⟩
  cases samePath
  cases atDevice.symm.trans atOther
  cases atChannel.symm.trans atOtherChannel
  cases atAttr.symm.trans atOtherAttr
  have channelChecked := checked _ _ atChannel
  have asked := asked_of_not_mismatches channelChecked named matched
  have otherAsked := asked_of_not_mismatches channelChecked named otherMatched
  have sameId := (checked _ _ atDevice).value_unique hasId otherHasId
  have sameChn := channelChecked.value_unique asked.1 otherAsked.1
  have sameOut :=
    directionName_injective (channelChecked.value_unique asked.2 otherAsked.2)
  have sameName := (checked _ _ atAttr).value_unique hasName otherHasName
  rw [sameId, sameChn, sameOut, sameName]

end Unique

theorem separates_of_wellFormed {doc : Option XmlDoc} (wellFormed : WellFormed doc) :
    Separates doc := by
  intro key other nodePointer found otherFound
  rcases located_of_lookup found with ⟨tree, rooted, located⟩
  rcases located_of_lookup otherFound with ⟨otherTree, otherRooted, otherLocated⟩
  cases rooted.symm.trans otherRooted
  have checked : ∀ path element, tree.labelAt path = some element →
      element.WellFormed := by
    intro path element reached
    rcases Option.bind_eq_some_iff.mp rooted with ⟨document, opened, atRoot⟩
    exact wellFormed document opened tree atRoot element
      (LabelledTree.mem_labels_of_labelAt reached)
  cases key with
  | device deviceId type attr =>
      cases other with
      | device => exact located_device_unique checked located otherLocated
      | channel =>
          rcases located with ⟨_, _, _, _, rfl, _⟩
          rcases otherLocated with ⟨_, _, _, _, _, _, samePath, _⟩
          cases samePath
  | channel deviceId chn chOut attr =>
      cases other with
      | channel => exact located_channel_unique checked located otherLocated
      | device =>
          rcases located with ⟨_, _, _, _, _, _, rfl, _⟩
          rcases otherLocated with ⟨_, _, _, _, samePath, _⟩
          cases samePath

end IioEmu
