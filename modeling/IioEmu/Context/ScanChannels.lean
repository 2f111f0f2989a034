import IioEmu.Utils.AttributeLookup

/-! # The direction of a generic device

A device is streamed when one of its channels has a scan element. Its direction is searched for
among all of its channels, with and without a scan element. -/

namespace IioEmu

def isScanChannel (doc : Option XmlDoc) (deviceId : String) : Bool :=
  match doc >>= XmlDoc.root with
  | none => false
  | some tree =>
      match getNode tree [] "device" "id" deviceId with
      | none => false
      | some nodeDevice =>
          (tree.descend nodeDevice).any fun device =>
            device.children.any fun nodeChannel =>
              nodeChannel.label.name == "channel" &&
                (getNodeByName nodeChannel [] "scan-element").isSome

def isOutputChannel (doc : Option XmlDoc) (deviceId : String) : Bool :=
  if !isScanChannel doc deviceId then false
  else
    match doc >>= XmlDoc.root with
    | none => false
    | some tree =>
        match getNode tree [] "device" "id" deviceId with
        | none => false
        | some nodeDevice => (getNode tree nodeDevice "channel" "type" "input").isNone

def isInputChannel (doc : Option XmlDoc) (deviceId : String) : Bool :=
  if !isScanChannel doc deviceId then false else !isOutputChannel doc deviceId

/-! ## Channels of a device -/

def deviceNode (doc : Option XmlDoc) (deviceId : String) : Option XmlNode := do
  let document ← doc
  let tree ← document.root
  let nodeDevice ← getNode tree [] "device" "id" deviceId
  tree.descend nodeDevice

def channels (doc : Option XmlDoc) (deviceId : String) : List XmlNode :=
  (deviceNode doc deviceId).elim [] fun device =>
    device.children.filter fun node => node.label.name == "channel"

def HasScanElement (channel : XmlNode) : Prop :=
  ∃ node ∈ channel.children, node.label.name = "scan-element"

instance (channel : XmlNode) : Decidable (HasScanElement channel) := by
  unfold HasScanElement
  infer_instance

def scanChannels (doc : Option XmlDoc) (deviceId : String) : List XmlNode :=
  (channels doc deviceId).filter fun channel => HasScanElement channel

def HasType (type : String) (channel : XmlNode) : Prop :=
  channel.label.hasProperty "type" type

instance (type : String) (channel : XmlNode) : Decidable (HasType type channel) := by
  unfold HasType
  infer_instance

section Channels

variable {doc : Option XmlDoc} {deviceId : String}

theorem getNodeByName_isSome_iff {node : XmlNode} {nodeName : String} :
    (getNodeByName node [] nodeName).isSome ↔
      ∃ child ∈ node.children, child.label.name = nodeName := by
  simp only [getNodeByName, LabelledTree.descend_nil,
    Option.bind_eq_bind, Option.bind_some, Option.pure_def, Option.isSome_bind,
    Option.any_eq_true, Option.isSome_some, and_true]
  rw [← Option.isSome_iff_exists, List.findIdx?_isSome, List.any_eq_true]
  simp only [beq_iff_eq]

theorem getNode_isNone_iff {tree parent : XmlNode} {root : NodePointer}
    (reached : tree.descend root = some parent) {nodeName attrName attrValue : String} :
    (getNode tree root nodeName attrName attrValue).isNone ↔
      ∀ child ∈ parent.children, child.label.name = nodeName →
        ¬ child.label.hasProperty attrName attrValue := by
  have searched : getNode tree root nodeName attrName attrValue =
      (parent.children.findIdx? fun node =>
        node.label.name == nodeName && node.label.hasProperty attrName attrValue).map
        fun position => root ++ [position] := by
    rw [getNode, reached, Option.map_eq_bind]
    rfl
  rw [searched, Option.isNone_map, Option.isNone_iff_eq_none, List.findIdx?_eq_none_iff]
  simp

theorem mem_channels_iff {channel : XmlNode} :
    channel ∈ channels doc deviceId ↔ ∃ device, deviceNode doc deviceId = some device ∧
      channel ∈ device.children ∧ channel.label.name = "channel" := by
  rw [channels]
  cases deviceNode doc deviceId with
  | none => simp
  | some device => simp

theorem mem_scanChannels_iff {channel : XmlNode} :
    channel ∈ scanChannels doc deviceId ↔
      channel ∈ channels doc deviceId ∧ HasScanElement channel := by
  simp [scanChannels]

theorem isScanChannel_iff :
    isScanChannel doc deviceId = true ↔ ∃ channel,
    channel ∈ scanChannels doc deviceId := by
  have inDevice : isScanChannel doc deviceId =
      (deviceNode doc deviceId).any fun device => device.children.any fun nodeChannel =>
        nodeChannel.label.name == "channel" &&
          (getNodeByName nodeChannel [] "scan-element").isSome := by
    cases doc with
    | none => rfl
    | some document =>
        cases rooted : document.root with
        | none => simp [isScanChannel, deviceNode, rooted]
        | some tree =>
            cases found : getNode tree [] "device" "id" deviceId with
            | none => simp [isScanChannel, deviceNode, rooted, found]
            | some nodeDevice => simp [isScanChannel, deviceNode, rooted, found]
  rw [inDevice, Option.any_eq_true]
  simp only [List.any_eq_true, Bool.and_eq_true, beq_iff_eq, getNodeByName_isSome_iff,
    mem_scanChannels_iff, mem_channels_iff, HasScanElement]
  constructor
  · rintro ⟨device, found, channel, child, named, scanned⟩
    exact ⟨channel, ⟨device, found, child, named⟩, scanned⟩
  · rintro ⟨channel, ⟨device, found, child, named⟩, scanned⟩
    exact ⟨device, found, channel, child, named, scanned⟩

/-- A streamed device is an output device when none of its channels is an input. -/
theorem isOutputChannel_iff (scanned : isScanChannel doc deviceId = true) :
    isOutputChannel doc deviceId = true ↔
      ∀ channel ∈ channels doc deviceId, ¬ HasType "input" channel := by
  rcases isScanChannel_iff.mp scanned with ⟨first, member⟩
  rw [mem_scanChannels_iff, mem_channels_iff] at member
  rcases member with ⟨⟨device, located, _, _⟩, _⟩
  have parts := located
  simp only [deviceNode, Option.bind_eq_bind, Option.bind_eq_some_iff] at parts
  rcases parts with ⟨document, rfl, tree, rooted, nodeDevice, found, reached⟩
  have searched : isOutputChannel (some document) deviceId =
      (getNode tree nodeDevice "channel" "type" "input").isNone := by
    simp [isOutputChannel, scanned, rooted, found]
  rw [searched, getNode_isNone_iff reached]
  simp only [mem_channels_iff, located, Option.some.injEq,
    exists_eq_left', and_imp, HasType]

end Channels

/-! ## The direction of the scan channels -/

/-- The device is an output device exactly when all its channels with a scan element are of
type output, and no output device exactly when one of them is of type input. -/
def FollowsScanChannels (doc : Option XmlDoc) (deviceId : String) : Prop :=
  (isOutputChannel doc deviceId = true ↔
      ∀ channel ∈ scanChannels doc deviceId, HasType "output" channel) ∧
    (isOutputChannel doc deviceId = false ↔
      ∃ channel ∈ scanChannels doc deviceId, HasType "input" channel)

section Direction

variable {doc : Option XmlDoc} {deviceId : String}

theorem wellFormed_of_mem_channels (wellFormed : WellFormed doc) {channel : XmlNode}
    (member : channel ∈ channels doc deviceId) : channel.label.WellFormed := by
  rw [mem_channels_iff] at member
  rcases member with ⟨device, located, child, _⟩
  simp only [deviceNode, Option.bind_eq_bind, Option.bind_eq_some_iff] at located
  rcases located with ⟨document, rfl, tree, rooted, nodeDevice, _, reached⟩
  rcases List.getElem?_of_mem child with ⟨position, located⟩
  have atChannel : tree.labelAt (nodeDevice ++ [position]) = some channel.label := by
    rw [LabelledTree.labelAt, LabelledTree.descend_concat reached,
      located, Option.map_some]
  exact wellFormed document rfl tree rooted _
    (LabelledTree.mem_labels_of_labelAt atChannel)

/-- The direction is that of the scan channels exactly when one of these is an input, or all of
them are outputs and no other channel is an input. -/
theorem follows_scan_channels_iff (wellFormed : WellFormed doc)
    (streamed : scanChannels doc deviceId ≠ []) :
    FollowsScanChannels doc deviceId ↔
      (∃ channel ∈ scanChannels doc deviceId, HasType "input" channel) ∨
        (∀ channel ∈ scanChannels doc deviceId, HasType "output" channel) ∧
          ∀ channel ∈ channels doc deviceId, ¬ HasType "input" channel := by
  have scanned : isScanChannel doc deviceId = true :=
    isScanChannel_iff.mpr (List.exists_mem_of_ne_nil _ streamed)
  have searched := isOutputChannel_iff scanned
  rw [FollowsScanChannels, ← Bool.not_eq_true, searched]
  constructor
  · rintro ⟨outputs, inputs⟩
    by_cases none : ∀ channel ∈ channels doc deviceId, ¬ HasType "input" channel
    · exact Or.inr ⟨outputs.mp none, none⟩
    · exact Or.inl (inputs.mp none)
  · rintro (⟨channel, member, isInput⟩ | ⟨outputs, none⟩)
    · have listed := (mem_scanChannels_iff.mp member).1
      have some : ¬ ∀ channel ∈ channels doc deviceId, ¬ HasType "input" channel :=
        fun none => none channel listed isInput
      refine ⟨⟨fun none => absurd none some, fun outputs => ?_⟩,
        ⟨fun _ => ⟨channel, member, isInput⟩, fun _ => some⟩⟩
      -- one type cannot be both
      have both := (wellFormed_of_mem_channels wellFormed listed).value_unique
        (outputs channel member) isInput
      exact absurd both (by decide)
    · refine ⟨⟨fun _ => outputs, fun _ => none⟩, ⟨fun some => absurd none some, ?_⟩⟩
      rintro ⟨channel, member, isInput⟩
      exact absurd isInput (none channel (mem_scanChannels_iff.mp member).1)

end Direction

section Examples

def channelOf (id type : String) (children : List XmlNode) : XmlNode :=
  .node ⟨"channel", [⟨"id", id⟩, ⟨"type", type⟩], ""⟩ children

def scanElement : XmlNode :=
  .node ⟨"scan-element", [⟨"index", "0"⟩, ⟨"format", "le:s12/16>>4"⟩], ""⟩ []

def contextOf (nodes : List XmlNode) : XmlDoc where
  root := some (.node ⟨"context", [⟨"name", "local"⟩], ""⟩
    [.node ⟨"device", [⟨"id", "iio:device0"⟩], ""⟩ nodes])

def monitoredTransmitter : Option XmlDoc :=
  some (contextOf [channelOf "voltage0" "output" [scanElement],
    channelOf "temp0" "input" []])

def adjustableReceiver : Option XmlDoc :=
  some (contextOf [channelOf "voltage0" "input" [scanElement],
    channelOf "gain0" "output" []])

theorem receiver_follows_scan_channels :
    FollowsScanChannels adjustableReceiver "iio:device0" :=
  (follows_scan_channels_iff (by decide) (by decide)).mpr (by decide)

theorem monitored_transmitter_is_no_output :
    WellFormed monitoredTransmitter ∧
    scanChannels monitoredTransmitter "iio:device0" ≠ [] ∧
      (∀ channel ∈ scanChannels monitoredTransmitter "iio:device0",
      HasType "output" channel) ∧
      isOutputChannel monitoredTransmitter "iio:device0" = false ∧
      ¬ FollowsScanChannels monitoredTransmitter "iio:device0" := by
  have searched : isOutputChannel monitoredTransmitter "iio:device0" = false := by decide
  have outputs : ∀ channel ∈ scanChannels monitoredTransmitter "iio:device0",
      HasType "output" channel := by decide
  refine ⟨by decide, by decide, outputs, searched, fun follows => ?_⟩
  rw [follows.1.mpr outputs] at searched
  cases searched

end Examples

end IioEmu
