import IioEmu.Xml.Writer

/-! # Documents as text

The program leaves serialising and parsing to libxml2. A document keeps its type, so what
stands before the root is the same in every text of it. -/

namespace IioEmu

class LibXml2Text where
  dumpMemory : XmlDoc → Option String
  readMemory : String → Option XmlDoc

def RoundTrips [LibXml2Text] (document : XmlDoc) : Prop :=
  LibXml2Text.dumpMemory document >>= LibXml2Text.readMemory = some document

def documentedProlog : String :=
  "<?xml version=\"1.0\" encoding=\"utf-8\"?>
<!DOCTYPE context [
<!ELEMENT context (device | context-attribute)*>
<!ELEMENT context-attribute EMPTY>
<!ELEMENT device (channel | attribute | debug-attribute | buffer-attribute)*>
<!ELEMENT channel (scan-element? , attribute*)>
<!ELEMENT attribute EMPTY>
<!ELEMENT scan-element EMPTY>
<!ELEMENT debug-attribute EMPTY>
<!ELEMENT buffer-attribute EMPTY>
<!ATTLIST context name CDATA #REQUIRED>
<!ATTLIST context description CDATA #IMPLIED>
<!ATTLIST context-attribute name CDATA #REQUIRED>
<!ATTLIST context-attribute value CDATA #REQUIRED>
<!ATTLIST device id CDATA #REQUIRED>
<!ATTLIST device name CDATA #IMPLIED>
<!ATTLIST channel id CDATA #REQUIRED>
<!ATTLIST channel type (input | output) #REQUIRED>
<!ATTLIST channel name CDATA #IMPLIED>
<!ATTLIST scan-element index CDATA #REQUIRED>
<!ATTLIST scan-element format CDATA #REQUIRED>
<!ATTLIST scan-element scale CDATA #IMPLIED>
<!ATTLIST attribute name CDATA #REQUIRED>
<!ATTLIST attribute filename CDATA #IMPLIED>
<!ATTLIST attribute value CDATA #IMPLIED>
<!ATTLIST debug-attribute name CDATA #REQUIRED>
<!ATTLIST debug-attribute value CDATA #IMPLIED>
<!ATTLIST buffer-attribute name CDATA #REQUIRED>
<!ATTLIST buffer-attribute value CDATA #IMPLIED>
]>\n"

/-- A property of the characters of a literal is checked on the list of them. -/
theorem holds_toList {text : String} {chars : List Char}
    (spelled : text = String.ofList chars) (Holds : List Char → Prop)
    (holds : Holds chars) : Holds text.toList := by
  rw [spelled, String.toList_ofList]
  exact holds

set_option maxRecDepth 20000 in
theorem checked_documented :
    (Xml.run Xml.start documentedProlog.toList).any Xml.atStart = true ∧
      '\r' ∉ documentedProlog.toList :=
  holds_toList (show documentedProlog = _ from rfl)
    (fun chars => (Xml.run Xml.start chars).any Xml.atStart = true ∧ '\r' ∉ chars)
    (by decide +kernel)

theorem isProlog_documented : Xml.IsProlog documentedProlog.toList :=
  Xml.isProlog_of_checked checked_documented.1

@[reducible] def plainLibXml2Text (prolog : String) : LibXml2Text where
  dumpMemory document := document.root.map fun tree =>
    String.ofList (prolog.toList ++ (Xml.render tree ++ ['\n']))
  readMemory xml := (Xml.parse xml.toList).map fun tree => ⟨some tree⟩

theorem roundTrips_plain {prolog : String} (isProlog : Xml.IsProlog prolog.toList)
    (free : '\r' ∉ prolog.toList) {tree : XmlNode} (named : tree.label.name ≠ "text")
    (writable : ∀ label ∈ tree.labels, Xml.Writable label)
    (settled : Xml.settle tree = tree) :
    @RoundTrips (plainLibXml2Text prolog) ⟨some tree⟩ := by
  have read :=
    Xml.parse_render isProlog ['\n'] (by decide) (by simp [free]) named writable
  rw [settled] at read
  have reread : (Xml.parse (String.ofList
      (prolog.toList ++ (Xml.render tree ++ ['\n']))).toList).map
        (fun tree => XmlDoc.mk (some tree)) = some ⟨some tree⟩ := by
    rw [String.toList_ofList, read, Option.map_some]
  exact reread

namespace Reference

scoped instance : LibXml2Text := plainLibXml2Text documentedProlog

theorem roundTrips {tree : XmlNode} (named : tree.label.name ≠ "text")
    (writable : ∀ label ∈ tree.labels, Xml.Writable label)
    (settled : Xml.settle tree = tree) :
    RoundTrips ⟨some tree⟩ :=
  roundTrips_plain isProlog_documented checked_documented.2 named writable settled

end Reference

end IioEmu
