import IioEmu.Context.Commands
import IioEmu.Foundation.Registers
import IioEmu.Utils.AgreeingDocuments

/-! # Attributes as registers

The commands that write an attribute name a key and hand over a text, and those that read one
name a key and a buffer. What a document holds at a key is what was written to it last. -/

namespace IioEmu

namespace Command

def stored? : Command → Option (AttributeKey × CharArray)
  | .writeAttr deviceId attr buf _ type => some (.device deviceId type attr, buf)
  | .chWriteAttr deviceId channel chOut attr buf _ =>
      some (.channel deviceId channel chOut attr, buf)
  | _ => none

def read? : Command → Option (AttributeKey × CharArray × Nat)
  | .readAttr deviceId attr buf len type => some (.device deviceId type attr, buf, len)
  | .chReadAttr deviceId channel chOut attr buf len =>
      some (.channel deviceId channel chOut attr, buf, len)
  | _ => none

def writtenTo (key : AttributeKey) (command : Command) : Option String :=
  command.stored?.bind fun (other, buf) =>
    if other = key then (cString buf).toOption else none

theorem stored?_eq_none_iff {command : Command} :
    command.stored? = none ↔ command.StoresAttribute = false := by
  cases command <;> simp [stored?, StoresAttribute]

theorem writtenTo_of_quiet {command : Command} (quiet : command.StoresAttribute = false)
    (key : AttributeKey) : command.writtenTo key = none := by
  rw [writtenTo, stored?_eq_none_iff.mpr quiet]
  rfl

end Command

section Documents

variable [LibXml2] {doc next : Option XmlDoc} {key other : AttributeKey} {text : String}

theorem contents_of_write (separates : Separates doc) {buf : CharArray}
    {len : Nat} {ret : Int} (holds : contents doc key = .ok (some (some text)))
    (written : other.write doc buf len = .ok (ret, next)) :
    contents next key = .ok (some (some
      ((if other = key then (cString buf).toOption else none).getD text))) := by
  by_cases same : other = key
  · subst same
    rcases AttributeKey.write_cases written with
      ⟨absent, _, _⟩ | ⟨nodeAttr, value, _, located, spelled, _, _, rfl⟩
    · rcases lookup_of_contents holds with ⟨nodeAttr, located⟩
      rw [absent] at located
      cases located
    · rw [contents_setValue separates located, Function.update_self, if_pos rfl, spelled]
      rfl
  · rw [if_neg same]
    have kept := (AttributeKey.agreeOn_of_write separates written).1.contents key
      (fun equal => same equal.symm)
    rw [kept]
    exact holds

end Documents

end IioEmu
