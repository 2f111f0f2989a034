import IioEmu.Utils.AttributeStore

/-! # Documents that agree on some keys

Two documents with the same lookups that hold the same at a set of keys answer the reads of
those keys alike, and go on agreeing when the same value is written to both. -/

namespace IioEmu

section Agreement

variable [LibXml2]

def AttributeKey.deviceId : AttributeKey → String
  | .device deviceId _ _ => deviceId
  | .channel deviceId _ _ _ => deviceId

structure AgreeOn (inside : AttributeKey → Prop) (doc other : Option XmlDoc) : Prop where
  lookups : ∀ key : AttributeKey, key.lookup other = key.lookup doc
  contents : ∀ key, inside key → contents other key = contents doc key

variable {inside : AttributeKey → Prop} {doc other next : Option XmlDoc}
  {key : AttributeKey}

theorem AgreeOn.refl (inside : AttributeKey → Prop) (doc : Option XmlDoc) :
    AgreeOn inside doc doc :=
  ⟨fun _ => rfl, fun _ _ => rfl⟩

theorem AgreeOn.symm (agree : AgreeOn inside doc other) : AgreeOn inside other doc :=
  ⟨fun key => (agree.lookups key).symm,
    fun key member => (agree.contents key member).symm⟩

theorem AgreeOn.trans (first : AgreeOn inside doc other)
    (second : AgreeOn inside other next) :
    AgreeOn inside doc next :=
  ⟨fun key => (second.lookups key).trans (first.lookups key),
    fun key member => (second.contents key member).trans (first.contents key member)⟩

theorem AgreeOn.read (agree : AgreeOn inside doc other) (key : AttributeKey)
    (member : inside key) (buf : CharArray) (len : Nat) :
    key.read other buf len = key.read doc buf len :=
  read_congr (agree.contents key member) buf len

namespace AttributeKey

theorem write_eq (doc : Option XmlDoc) (key : AttributeKey)
    (buf : CharArray) (len : Nat) :
    key.write doc buf len = key.lookup doc >>= fun found =>
      match found with
      | none => .ok (-ENOENT, doc)
      | some nodeAttr => cString buf >>= fun value => strnlen buf len >>= fun length =>
          .ok ((length : Int) + 1, setValue doc nodeAttr value) := by
  cases located : key.lookup doc with
  | error fault => exact write_fault located buf len
  | ok found =>
      cases found with
      | none => exact write_absent located buf len
      | some nodeAttr =>
          cases doc with
          | none =>
              rw [lookup_none] at located
              cases located
          | some document =>
              cases key with
              | device deviceId type attr =>
                  simp only [lookup, Except.ok.injEq] at located
                  simp [write, writeDevAttr, located, setValue]
              | channel deviceId chn chOut attr =>
                  simp only [lookup] at located
                  simp [write, writeChannelAttr, located, setValue]

theorem write_cases {buf : CharArray} {len : Nat} {ret : Int}
    (written : key.write doc buf len = .ok (ret, next)) :
    (key.lookup doc = .ok none ∧ ret = -ENOENT ∧ next = doc) ∨
      ∃ nodeAttr value length, key.lookup doc = .ok (some nodeAttr) ∧
        cString buf = .ok value ∧ strnlen buf len = .ok length ∧
        ret = (length : Int) + 1 ∧
        next = setValue doc nodeAttr value := by
  rw [write_eq, Outcome.bind_eq_ok] at written
  rcases written with ⟨found, located, written⟩
  cases found with
  | none =>
      injection written with written
      injection written with sameRet sameDoc
      exact .inl ⟨located, sameRet.symm, sameDoc.symm⟩
  | some nodeAttr =>
      simp only [Outcome.bind_eq_ok, Except.ok.injEq, Prod.mk.injEq] at written
      rcases written with ⟨value, spelled, length, counted, sameRet, sameDoc⟩
      exact .inr ⟨nodeAttr, value, length, located, spelled, counted, sameRet.symm,
        sameDoc.symm⟩

/-- A write keeps every lookup, and what is held at every other key. -/
theorem agreeOn_of_write {buf : CharArray} {len : Nat} {ret : Int}
    (separates : Separates doc) (written : key.write doc buf len = .ok (ret, next)) :
    AgreeOn (· ≠ key) doc next ∧ Separates next := by
  rcases write_cases written with ⟨_, _, rfl⟩ | ⟨nodeAttr, value, _,
    located, _, _, _, rfl⟩
  · exact ⟨AgreeOn.refl _ next, separates⟩
  · refine ⟨⟨lookup_setValue doc nodeAttr value, ?_⟩, separates.setValue nodeAttr value⟩
    intro different member
    rw [contents_setValue separates located, Function.update_of_ne member]

end AttributeKey

theorem AgreeOn.write (agree : AgreeOn inside doc other) (separates : Separates doc)
    (otherSeparates : Separates other) {buf : CharArray} {len : Nat} {ret : Int}
    (written : key.write doc buf len = .ok (ret, next)) :
    ∃ otherNext, key.write other buf len = .ok (ret, otherNext) ∧
      AgreeOn inside next otherNext := by
  rcases AttributeKey.write_cases written with ⟨absent, rfl, rfl⟩ |
    ⟨nodeAttr, value, length, located, spelled, counted, rfl, rfl⟩
  · refine ⟨other, ?_, agree⟩
    exact AttributeKey.write_absent ((agree.lookups key).trans absent) buf len
  · have otherLocated := (agree.lookups key).trans located
    refine ⟨setValue other nodeAttr value, ?_, ?_, ?_⟩
    · rw [AttributeKey.write_eq, otherLocated, Outcome.ok_bind]
      simp only [spelled, counted, Outcome.ok_bind]
    · intro asked
      rw [lookup_setValue, lookup_setValue]
      exact agree.lookups asked
    · intro asked member
      rw [contents_setValue separates located,
        contents_setValue otherSeparates otherLocated]
      by_cases same : asked = key
      · rw [same, Function.update_self, Function.update_self]
      · rw [Function.update_of_ne same, Function.update_of_ne same]
        exact agree.contents asked member

end Agreement

end IioEmu
