import IioEmu.Utils.XmlUtils

/-! # Reading and writing attribute values -/

namespace IioEmu

variable [LibXml2]

def ENOENT : Int := 2

def XmlDoc.getProp (doc : XmlDoc) (pointer : NodePointer) (attrName : String) :
    Option String := do
  let tree ← doc.root
  let element ← tree.labelAt pointer
  LibXml2.getProp element attrName

def XmlDoc.setProp (doc : XmlDoc) (pointer : NodePointer) (attrName value : String) :
    XmlDoc where
  root := doc.root.map
    (LabelledTree.modifyLabel (fun element => LibXml2.setProp element attrName value)
      pointer)

/-- Copy a value into the buffer, at most `len` characters and one more, and
count what the buffer then holds. -/
def copyValue (value : Option String) (buf : CharArray) (len : Nat) :
    Outcome (Int × CharArray) :=
  match value with
  | none => .error .nullPointer
  | some value => do
      let count ← strnlen (terminated value) len
      let chars ← memcpy (terminated value) 0 (count + 1)
      let stored ← store buf chars
      let length ← strnlen stored len
      return ((length : Int) + 1, stored)

omit [LibXml2] in
theorem copyValue_eq {text : String} (free : NulFree text) (buf : CharArray) (len : Nat) :
    copyValue (some text) buf len =
      if min text.length len < buf.length then
        .ok (((min text.length len : Nat) : Int) + 1,
          (terminated text).take (min text.length len + 1) ++
            buf.drop (min text.length len + 1))
      else .error .outOfBounds := by
  have counted : strnlen (terminated text) len = .ok (min text.length len) := by
    have value := strnlen_terminated_append free [] len
    rwa [List.append_nil] at value
  have copied : memcpy (terminated text) 0 (min text.length len + 1) =
      .ok ((terminated text).take (min text.length len + 1)) := by
    rw [memcpy_of_le (by rw [length_terminated]; omega), List.drop_zero]
  have length : ((terminated text).take (min text.length len + 1)).length =
      min text.length len + 1 := by
    rw [List.length_take, length_terminated]
    omega
  have again (rest : CharArray) :
      strnlen ((terminated text).take (min text.length len + 1) ++ rest) len =
        .ok (min text.length len) := by
    by_cases inside : text.length ≤ len
    · rw [Nat.min_eq_left inside, ← length_terminated, List.take_length,
        strnlen_terminated_append free, Nat.min_eq_left inside]
    · have first :
          (terminated text).take (len + 1) = (text.toList.take (len + 1)).map some := by
        rw [terminated, List.take_append_of_le_length
          (by rw [List.length_map, String.length_toList]; omega), List.map_take]
      rw [Nat.min_eq_right (by omega), first, strnlen_append_of_le]
      · exact fun member => free (List.mem_of_mem_take member)
      · rw [List.length_take, String.length_toList]
        omega
  simp only [copyValue, counted, Outcome.ok_bind, copied]
  split
  case isTrue room =>
    rw [store_of_le (by omega), length, Outcome.ok_bind, again]
    rfl
  case isFalse small =>
    rw [store_of_lt (by omega)]
    rfl

omit [LibXml2] in
theorem copyValue_of_lt {text : String} (free : NulFree text)
    {buf : CharArray} {len : Nat} (room : text.length < buf.length)
    (inside : text.length < len) :
    copyValue (some text) buf len =
      .ok ((text.length : Int) + 1, terminated text ++ buf.drop (text.length + 1)) := by
  have whole : (terminated text).take (text.length + 1) = terminated text := by
    rw [← length_terminated, List.take_length]
  rw [copyValue_eq free, Nat.min_eq_left (Nat.le_of_lt inside), if_pos room, whole]

omit [LibXml2] in
/-- A value as long as the length given is copied with one character more. -/
theorem copyValue_of_le {text : String} (free : NulFree text)
    {buf : CharArray} {len : Nat} (long : len ≤ text.length) (small : buf.length ≤ len) :
    copyValue (some text) buf len = .error .outOfBounds := by
  rw [copyValue_eq free, Nat.min_eq_right long, if_neg (by omega)]

omit [LibXml2] in
theorem length_of_copyValue {value : Option String} {buf stored : CharArray} {len : Nat}
    {ret : Int} (copied : copyValue value buf len = .ok (ret, stored)) :
    stored.length = buf.length := by
  cases value with
  | none => cases copied
  | some text =>
      simp only [copyValue, Outcome.bind_eq_ok, Outcome.pure_eq_ok, Except.ok.injEq,
        Prod.mk.injEq] at copied
      rcases copied with ⟨count, _, chars, _, array, kept, _, _, _, rfl⟩
      exact length_of_store kept

omit [LibXml2] in
theorem copyValue_noThrow (value : Option String) (buf : CharArray) (len : Nat) :
    Outcome.NoThrow (copyValue value buf len) := by
  cases value with
  | none => exact Outcome.noThrow_error rfl
  | some text =>
      apply (strnlen_noThrow _ _).bind
      intro count
      apply (memcpy_noThrow _ _ _).bind
      intro chars
      apply (store_noThrow _ _).bind
      intro stored
      exact (strnlen_noThrow _ _).bind fun _ => Outcome.noThrow_ok _

def readDeviceAttr (doc : Option XmlDoc) (deviceId attr : String) (buf : CharArray)
    (len : Nat) (type : IioAttrType) : Outcome (Int × CharArray) :=
  match doc with
  | none => .ok (-ENOENT, buf)
  | some document =>
      match getDeviceAttr doc deviceId type attr with
      | none => .ok (-ENOENT, buf)
      | some nodeAttr => copyValue (document.getProp nodeAttr "value") buf len

def writeDevAttr (doc : Option XmlDoc) (deviceId attr : String) (buf : CharArray)
    (len : Nat) (type : IioAttrType) : Outcome (Int × Option XmlDoc) :=
  match doc with
  | none => .ok (-ENOENT, doc)
  | some document =>
      match getDeviceAttr doc deviceId type attr with
      | none => .ok (-ENOENT, doc)
      | some nodeAttr => do
          let value ← cString buf
          let length ← strnlen buf len
          return ((length : Int) + 1, some (document.setProp nodeAttr "value" value))

def readChannelAttr (doc : Option XmlDoc) (deviceId channel : String) (chOut : Bool)
    (attr : String) (buf : CharArray) (len : Nat) : Outcome (Int × CharArray) :=
  match doc with
  | none => .ok (-ENOENT, buf)
  | some document =>
      getChannelAttr doc channel deviceId attr chOut >>= fun found =>
      match found with
      | none => .ok (-ENOENT, buf)
      | some nodeAttr => copyValue (document.getProp nodeAttr "value") buf len

def writeChannelAttr (doc : Option XmlDoc) (deviceId channel : String) (chOut : Bool)
    (attr : String) (buf : CharArray) (len : Nat) : Outcome (Int × Option XmlDoc) :=
  match doc with
  | none => .ok (-ENOENT, doc)
  | some document =>
      getChannelAttr doc channel deviceId attr chOut >>= fun found =>
      match found with
      | none => .ok (-ENOENT, doc)
      | some nodeAttr => do
          let value ← cString buf
          let length ← strnlen buf len
          return ((length : Int) + 1, some (document.setProp nodeAttr "value" value))

/-- The node is not tested before its property is read. -/
def readContextAttr (doc : Option XmlDoc) (attr : String) (buf : CharArray)
    (len : Nat) : Outcome (Int × CharArray) :=
  match doc with
  | none => .ok (-ENOENT, buf)
  | some document =>
      match document.root with
      | none => .error .nullPointer
      | some tree =>
          copyValue (getNode tree [] "context-attribute" "name" attr >>=
            fun nodeAttr => document.getProp nodeAttr "value") buf len

def contextValue (tree : XmlNode) (attr : String) : Option String := do
  let nodeAttr ← getNode tree [] "context-attribute" "name" attr
  let element ← tree.labelAt nodeAttr
  element.property? "value"

theorem readContextAttr_eq_copyValue {document : XmlDoc} {tree : XmlNode}
    (rooted : document.root = some tree) {attr text : String}
    (value : contextValue tree attr = some text) (buf : CharArray) (len : Nat) :
    readContextAttr (some document) attr buf len = copyValue (some text) buf len := by
  have read : (getNode tree [] "context-attribute" "name" attr).bind
      (fun nodeAttr => document.getProp nodeAttr "value") = some text := by
    rw [← value]
    simp only [contextValue, XmlDoc.getProp, rooted, LibXml2.getProp_eq]
    rfl
  simp only [readContextAttr, rooted, Option.bind_eq_bind, read]

theorem readContextAttr_of_value {document : XmlDoc} {tree : XmlNode}
    (rooted : document.root = some tree) {attr text : String}
    (value : contextValue tree attr = some text) (free : NulFree text) {buf : CharArray}
    {len : Nat} (room : text.length < buf.length) (inside : text.length < len) :
    readContextAttr (some document) attr buf len =
      .ok ((text.length : Int) + 1, terminated text ++ buf.drop (text.length + 1)) := by
  rw [readContextAttr_eq_copyValue rooted value]
  exact copyValue_of_lt free room inside

end IioEmu
