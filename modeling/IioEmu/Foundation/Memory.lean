import IioEmu.Foundation.Outcome

/-! # Bytes, words and character arrays

Memory is a list of its elements in address order. Sixteen-bit words are
stored with the low byte first. -/

namespace IioEmu

abbrev Byte := BitVec 8
abbrev Word := BitVec 16

def memcpy {α : Type} (source : List α) (start count : Nat) : Outcome (List α) :=
  if start + count ≤ source.length then
    .ok ((source.drop start).take count)
  else
    .error .outOfBounds

theorem memcpy_of_le {α : Type} {source : List α} {start count : Nat}
    (inside : start + count ≤ source.length) :
    memcpy source start count = .ok ((source.drop start).take count) := by
  simp [memcpy, inside]

theorem memcpy_of_lt {α : Type} {source : List α} {start count : Nat}
    (outside : source.length < start + count) :
    memcpy source start count = .error .outOfBounds := by
  simp [memcpy, outside]

theorem length_of_memcpy {α : Type} {source copied : List α} {start count : Nat}
    (returned : memcpy source start count = .ok copied) :
    copied.length = count ∧ start + count ≤ source.length := by
  by_cases inside : start + count ≤ source.length
  · rw [memcpy_of_le inside, Except.ok.injEq] at returned
    rw [← returned, List.length_take, List.length_drop]
    omega
  · rw [memcpy_of_lt (by omega)] at returned
    cases returned

theorem memcpy_all {α : Type} (source : List α) :
    memcpy source 0 source.length = .ok source := by
  simp [memcpy]

def store {α : Type} (array elements : List α) : Outcome (List α) :=
  if elements.length ≤ array.length then
    .ok (elements ++ array.drop elements.length)
  else
    .error .outOfBounds

theorem store_of_le {α : Type} {array elements : List α}
    (inside : elements.length ≤ array.length) :
    store array elements = .ok (elements ++ array.drop elements.length) := by
  simp [store, inside]

theorem store_of_lt {α : Type} {array elements : List α}
    (outside : array.length < elements.length) :
    store array elements = .error .outOfBounds := by
  simp [store, outside]

theorem length_of_store {α : Type} {array elements stored : List α}
    (returned : store array elements = .ok stored) : stored.length = array.length := by
  by_cases inside : elements.length ≤ array.length
  · rw [store_of_le inside, Except.ok.injEq] at returned
    rw [← returned, List.length_append, List.length_drop]
    omega
  · rw [store_of_lt (by omega)] at returned
    cases returned

/-! ## Words in memory -/

/-- The words a byte array holds; an odd last byte belongs to none. -/
def wordsOfBytes : List Byte → List Word
  | low :: high :: rest => (high ++ low) :: wordsOfBytes rest
  | _ => []

def bytesOfWord (word : Word) : List Byte :=
  [word.extractLsb' 0 8, word.extractLsb' 8 8]

def bytesOfWords (words : List Word) : List Byte := words.flatMap bytesOfWord

@[simp] theorem length_bytesOfWords (words : List Word) :
    (bytesOfWords words).length = 2 * words.length := by
  induction words with
  | nil => rfl
  | cons word words induction =>
      simp [bytesOfWords, bytesOfWord] at induction ⊢
      omega

@[simp] theorem wordsOfBytes_bytesOfWords (words : List Word) :
    wordsOfBytes (bytesOfWords words) = words := by
  induction words with
  | nil => rfl
  | cons word words induction =>
      have joined : word.extractLsb' 8 8 ++ word.extractLsb' 0 8 = word := by
        apply BitVec.eq_of_getLsbD_eq
        intro index bound
        simp only [BitVec.getLsbD_append, BitVec.getLsbD_extractLsb']
        by_cases low : index < 8
        · simp [low]
        · simp [low, show index - 8 < 8 by omega, show 8 + (index - 8) = index by omega]
      change (word.extractLsb' 8 8 ++ word.extractLsb' 0 8) ::
        wordsOfBytes (bytesOfWords words) = word :: words
      rw [joined, induction]

theorem memcpy_bytesOfWords {words : List Word} {count : Nat}
    (size : 2 * words.length = count) :
    memcpy (bytesOfWords words) 0 count = .ok (bytesOfWords words) := by
  have whole := memcpy_all (bytesOfWords words)
  rwa [length_bytesOfWords, size] at whole

def loadWords (buffer : List Byte) (count : Nat) : Outcome (List Word) :=
  memcpy buffer 0 (2 * count) >>= fun bytes => .ok (wordsOfBytes bytes)

theorem length_wordsOfBytes (bytes : List Byte) :
    (wordsOfBytes bytes).length = bytes.length / 2 := by
  induction bytes using wordsOfBytes.induct with
  | case1 low high rest induction =>
      rw [wordsOfBytes, List.length_cons, induction, List.length_cons, List.length_cons]
      omega
  | case2 bytes short =>
      cases bytes with
      | nil => rfl
      | cons low rest =>
          cases rest with
          | nil => simp [wordsOfBytes]
          | cons high rest => exact absurd rfl (short low high rest)

theorem loadWords_of_le {buffer : List Byte} {count : Nat}
    (inside : 2 * count ≤ buffer.length) :
    ∃ words, loadWords buffer count = .ok words ∧ words.length = count := by
  refine ⟨wordsOfBytes ((buffer.drop 0).take (2 * count)), ?_, ?_⟩
  · rw [loadWords, memcpy_of_le (by omega), Outcome.ok_bind]
  · rw [length_wordsOfBytes, List.drop_zero, List.length_take]
    omega

theorem length_of_loadWords {buffer : List Byte} {count : Nat} {words : List Word}
    (loaded : loadWords buffer count = .ok words) : words.length = count := by
  rw [loadWords, Outcome.bind_eq_ok] at loaded
  rcases loaded with ⟨bytes, copied, equal⟩
  cases equal
  rw [length_wordsOfBytes, (length_of_memcpy copied).1]
  omega

@[simp] theorem loadWords_bytesOfWords (words : List Word) :
    loadWords (bytesOfWords words) words.length = .ok words := by
  simp [loadWords, memcpy_bytesOfWords]

/-! ## Character arrays and C strings

One `Char` is one C `char`, that is one byte: a text is the list of its bytes, and every
length and size is a number of bytes. A `char` whose value was never stored is `none`. -/

abbrev CharArray := List (Option Char)

def uninitialised (size : Nat) : CharArray := List.replicate size none

def nul : Char := Char.ofNat 0

def charOfByte (byte : Byte) : Char := Char.ofNat byte.toNat

theorem charOfByte_eq_nul_iff {byte : Byte} : charOfByte byte = nul ↔ byte = 0#8 := by
  revert byte
  decide

def NulFree (text : String) : Prop := nul ∉ text.toList

instance (text : String) : Decidable (NulFree text) :=
  inferInstanceAs (Decidable (nul ∉ text.toList))

def terminated (text : String) : CharArray := text.toList.map some ++ [some nul]

@[simp] theorem length_terminated (text : String) :
    (terminated text).length = text.length + 1 := by
  simp [terminated, String.length_toList]

def charsToNul : CharArray → Outcome (List Char)
  | [] => .error .outOfBounds
  | none :: _ => .error .indeterminateValue
  | some char :: rest =>
      if char = nul then .ok []
      else charsToNul rest >>= fun chars => .ok (char :: chars)

def cString (array : CharArray) : Outcome String :=
  charsToNul array >>= fun chars => .ok (String.ofList chars)

theorem charsToNul_append (chars : List Char) (rest : CharArray)
    (free : nul ∉ chars) :
    charsToNul (chars.map some ++ some nul :: rest) = .ok chars := by
  induction chars with
  | nil => simp [charsToNul]
  | cons char chars induction =>
      have different : char ≠ nul := fun equal => free (by simp [equal])
      have tailFree : nul ∉ chars := fun member => free (by simp [member])
      simp [charsToNul, different, induction tailFree]

/-- A string is read to its end exactly when the end comes before every unknown character. -/
theorem charsToNul_returns_iff {array : CharArray} :
    (∃ chars, charsToNul array = .ok chars) ↔
    some nul ∈ array.takeWhile Option.isSome := by
  induction array with
  | nil => simp [charsToNul]
  | cons cell rest induction =>
      cases cell with
      | none => simp [charsToNul]
      | some char =>
          rw [List.takeWhile_cons_of_pos rfl, List.mem_cons, ← induction, charsToNul]
          by_cases ended : char = nul
          · simp [ended]
          · simp [ended, Ne.symm ended, Outcome.bind_eq_ok]

theorem cString_terminated_append {text : String} (free : NulFree text)
    (rest : CharArray) : cString (terminated text ++ rest) = .ok text := by
  simp [cString, terminated, charsToNul_append _ _ free]

/-- `strnlen`: the number of characters before the terminator, at most `limit`. -/
def strnlen : CharArray → Nat → Outcome Nat
  | _, 0 => .ok 0
  | [], _ + 1 => .error .outOfBounds
  | none :: _, _ + 1 => .error .indeterminateValue
  | some char :: rest, limit + 1 =>
      if char = nul then .ok 0
      else strnlen rest limit >>= fun length => .ok (length + 1)

theorem strnlen_append (chars : List Char) (rest : CharArray) (limit : Nat)
    (free : nul ∉ chars) :
    strnlen (chars.map some ++ some nul :: rest) limit =
      .ok (min chars.length limit) := by
  induction chars generalizing limit with
  | nil => cases limit <;> simp [strnlen]
  | cons char chars induction =>
      have different : char ≠ nul := fun equal => free (by simp [equal])
      have tailFree : nul ∉ chars := fun member => free (by simp [member])
      cases limit with
      | zero => simp [strnlen]
      | succ limit => simp [strnlen, different, induction limit tailFree]

theorem strnlen_append_of_le {chars : List Char} (free : nul ∉ chars) {limit : Nat}
    (long : limit ≤ chars.length) (rest : CharArray) :
    strnlen (chars.map some ++ rest) limit = .ok limit := by
  induction chars generalizing limit with
  | nil =>
      rw [List.length_nil, Nat.le_zero] at long
      simp [long, strnlen]
  | cons char chars induction =>
      have different : char ≠ nul := fun equal => free (by simp [equal])
      have tailFree : nul ∉ chars := fun member => free (by simp [member])
      cases limit with
      | zero => rfl
      | succ limit => simp [strnlen, different,
            induction tailFree (Nat.le_of_succ_le_succ long)]

theorem strnlen_terminated_append {text : String} (free : NulFree text)
    (rest : CharArray) (limit : Nat) :
    strnlen (terminated text ++ rest) limit = .ok (min text.length limit) := by
  simp [terminated, strnlen_append _ _ _ free, String.length_toList]

/-- `strncpy`: the characters of the source, at most `count`, and terminators up to `count`. -/
def strncpy (dest : CharArray) (source : String) (count : Nat) : Outcome CharArray :=
  store dest ((source.toList.take count).map some ++
    List.replicate (count - source.length) (some nul))

/-- `!strcmp`, which reads on to the first difference. -/
def sameString : CharArray → CharArray → Outcome Bool
  | some char :: rest, some other :: more =>
      if char ≠ other then .ok false
      else if char = nul then .ok true
      else sameString rest more
  | none :: _, _ :: _ => .error .indeterminateValue
  | _ :: _, none :: _ => .error .indeterminateValue
  | [], _ => .error .outOfBounds
  | _ :: _, [] => .error .outOfBounds

theorem sameString_append {chars others : List Char} (free : nul ∉ chars)
    (otherFree : nul ∉ others) (rest more : CharArray) :
    sameString (chars.map some ++ some nul :: rest)
      (others.map some ++ some nul :: more) = .ok (chars == others) := by
  induction chars generalizing others with
  | nil =>
      cases others with
      | nil => simp [sameString]
      | cons other others =>
          have different : nul ≠ other := fun equal => otherFree (by simp [equal])
          simp [sameString, different]
  | cons char chars induction =>
      have notEnd : char ≠ nul := fun equal => free (by simp [equal])
      have tailFree : nul ∉ chars := fun member => free (by simp [member])
      cases others with
      | nil => simp [sameString, notEnd]
      | cons other others =>
          have restFree : nul ∉ others := fun member => otherFree (by simp [member])
          by_cases same : char = other
          · subst same
            simp [sameString, notEnd, induction tailFree restFree]
          · simp [sameString, same]

theorem sameString_terminated {text other : String} (free : NulFree text)
    (otherFree : NulFree other) :
    sameString (terminated text) (terminated other) = .ok (text == other) := by
  rw [terminated, terminated, sameString_append free otherFree]
  congr 1
  rw [Bool.eq_iff_iff, beq_iff_eq, beq_iff_eq, String.toList_inj]

theorem sameString_unterminated {chars : List Char} (free : nul ∉ chars)
    (more : CharArray) :
    sameString (chars.map some) (chars.map some ++ more) = .error .outOfBounds := by
  induction chars with
  | nil => rfl
  | cons char chars induction =>
      have notEnd : char ≠ nul := fun equal => free (by simp [equal])
      have tailFree : nul ∉ chars := fun member => free (by simp [member])
      simp [sameString, notEnd, induction tailFree]

/-- `!strncmp(text, literal, sizeof(literal) - 1)`. -/
def startsWith (text literal : String) : Bool :=
  literal.toList.isPrefixOf text.toList

def arrayStartsWith : CharArray → List Char → Outcome Bool
  | _, [] => .ok true
  | [], _ :: _ => .error .outOfBounds
  | none :: _, _ :: _ => .error .indeterminateValue
  | some char :: rest, wanted :: more =>
      if char = wanted then arrayStartsWith rest more else .ok false

theorem arrayStartsWith_append {wanted : List Char}
    (free : nul ∉ wanted) (chars : List Char) (rest : CharArray) :
    arrayStartsWith (chars.map some ++ some nul :: rest) wanted =
      .ok (wanted.isPrefixOf chars) := by
  induction chars generalizing wanted with
  | nil =>
      cases wanted with
      | nil => rfl
      | cons first more =>
          have different : nul ≠ first := fun equal => free (by simp [equal])
          simp [arrayStartsWith, different]
  | cons char chars induction =>
      cases wanted with
      | nil => rfl
      | cons first more =>
          have tailFree : nul ∉ more := fun member => free (by simp [member])
          rw [List.map_cons, List.cons_append, arrayStartsWith, induction tailFree,
            List.isPrefixOf_cons_cons]
          by_cases same : char = first
          · simp [same]
          · simp [same, Ne.symm same]

theorem arrayStartsWith_terminated_append {literal : String} (free : NulFree literal)
    (text : String) (rest : CharArray) :
    arrayStartsWith (terminated text ++ rest) literal.toList =
    .ok (startsWith text literal) := by
  rw [terminated, List.append_assoc]
  exact arrayStartsWith_append free text.toList rest

/-! ## Memory functions throw nothing -/

section NoThrow

open Outcome

theorem memcpy_noThrow {α : Type} (source : List α) (start count : Nat) :
    NoThrow (memcpy source start count) := by
  rw [memcpy]
  split
  · exact noThrow_ok _
  · exact noThrow_error rfl

theorem store_noThrow {α : Type} (array elements : List α) :
    NoThrow (store array elements) := by
  rw [store]
  split
  · exact noThrow_ok _
  · exact noThrow_error rfl

theorem strnlen_noThrow (array : CharArray) (limit : Nat) :
    NoThrow (strnlen array limit) := by
  induction limit generalizing array with
  | zero =>
      rw [strnlen]
      exact noThrow_ok _
  | succ limit induction =>
      cases array with
      | nil => exact noThrow_error rfl
      | cons cell rest =>
          cases cell with
          | none => exact noThrow_error rfl
          | some char =>
              rw [strnlen]
              split
              · exact noThrow_ok _
              · exact (induction rest).bind fun _ => noThrow_ok _

theorem arrayStartsWith_noThrow (array : CharArray) (wanted : List Char) :
    NoThrow (arrayStartsWith array wanted) := by
  induction wanted generalizing array with
  | nil =>
      rw [arrayStartsWith]
      exact noThrow_ok _
  | cons char more induction =>
      cases array with
      | nil => exact noThrow_error rfl
      | cons cell rest =>
          cases cell with
          | none => exact noThrow_error rfl
          | some other =>
              rw [arrayStartsWith]
              split
              · exact induction rest
              · exact noThrow_ok _

end NoThrow

/-! ## Buffers of the program -/

/-- The constant of libtinyiiod that sizes the program's character buffers. The
attribute texts of the bundled document fit it. -/
class TinyIIOD where
  IIOD_BUFFER_SIZE : Nat
  bufferSize_large : 64 ≤ IIOD_BUFFER_SIZE

/-- A buffer on the stack as a call finds it. A program may count on no value there; an
element whose value is unknown is `none`. -/
abbrev StackBuffer (α : Type) [TinyIIOD] :=
  { array : List (Option α) // array.length = TinyIIOD.IIOD_BUFFER_SIZE }

def StackBuffer.unknown (α : Type) [TinyIIOD] : StackBuffer α :=
  ⟨List.replicate TinyIIOD.IIOD_BUFFER_SIZE none, List.length_replicate⟩

namespace Reference

scoped instance : TinyIIOD where
  IIOD_BUFFER_SIZE := 4096
  bufferSize_large := by decide

end Reference

end IioEmu
