import Mathlib.Data.List.Basic
import Mathlib.Data.Nat.Digits.Defs
import Mathlib.Tactic

/-!
# Uuids and their text

A uuid is sixteen bytes.  What is needed of a library that writes uuids and
reads them is stated as a structure; `hyphenated` is the form with five groups
of hexadecimal digits.
-/

namespace CockatielEngine

/-- The sixteen bytes of a uuid. -/
abbrev Uuid :=
  { bytes : List UInt8 // bytes.length = 16 }

/-- `Uuid::from_slice`. -/
def Uuid.fromSlice (bytes : List UInt8) : Option Uuid :=
  if h : bytes.length = 16 then some ⟨bytes, h⟩ else none

theorem Uuid.fromSlice_eq_some_iff
    {bytes : List UInt8} {u : Uuid} :
    Uuid.fromSlice bytes = some u ↔ bytes = u.1 := by
  unfold Uuid.fromSlice
  split
  · rw [Option.some.injEq, Subtype.ext_iff]
  · rename_i hlen
    constructor
    · intro h
      cases h
    · rintro rfl
      exact absurd u.2 hlen

/-- Uuids as text: what is written is not empty and can be read back. -/
structure UuidText where
  parseStr : String → Option Uuid
  toStr : Uuid → String
  parseStr_toStr : ∀ u, parseStr (toStr u) = some u
  toStr_ne_empty : ∀ u, toStr u ≠ ""

theorem UuidText.toStr_injective
    (T : UuidText) :
    Function.Injective T.toStr := by
  intro u v h
  have hparse := T.parseStr_toStr u
  rw [h, T.parseStr_toStr v] at hparse
  exact (Option.some.inj hparse).symm

section Hexadecimal

/-- The two digits of a byte. -/
def hexByte (b : UInt8) : List Char :=
  [Nat.digitChar (b.toNat / 16), Nat.digitChar (b.toNat % 16)]

def hex (bytes : List UInt8) : List Char :=
  bytes.flatMap hexByte

def hexValue (c : Char) : Option Nat :=
  if c.isDigit then some (c.toNat - '0'.toNat)
  else if 'a' ≤ c ∧ c ≤ 'f' then some (c.toNat - 'a'.toNat + 10)
  else if 'A' ≤ c ∧ c ≤ 'F' then some (c.toNat - 'A'.toNat + 10)
  else none

def readHex : List Char → Option (List UInt8)
  | [] => some []
  | [_] => none
  | c :: d :: rest =>
      match hexValue c, hexValue d, readHex rest with
      | some h, some l, some bytes => some (UInt8.ofNat (16 * h + l) :: bytes)
      | _, _, _ => none

/-- The digits in groups of eight, four, four, four and twelve. -/
def hyphenate (bytes : List UInt8) : List Char :=
  hex (bytes.take 4) ++ '-' :: (hex ((bytes.drop 4).take 2) ++
    '-' :: (hex ((bytes.drop 6).take 2) ++ '-' :: (hex ((bytes.drop 8).take 2) ++
      '-' :: hex (bytes.drop 10))))

/-- A digit is read as its value, is no hyphen and is in lower case. -/
theorem digitChar_spec
    {n : Nat} (hn : n < 16) :
    hexValue (Nat.digitChar n) = some n ∧ Nat.digitChar n ≠ '-' ∧
      (Nat.digitChar n).toLower = Nat.digitChar n := by
  have hall : ∀ m : Fin 16, hexValue (Nat.digitChar m) = some m.1 ∧
      Nat.digitChar m ≠ '-' ∧ (Nat.digitChar m).toLower = Nat.digitChar m := by
    decide
  exact hall ⟨n, hn⟩

theorem high_lt (b : UInt8) : b.toNat / 16 < 16 := by
  have hb := b.toNat_lt
  omega

theorem low_lt (b : UInt8) : b.toNat % 16 < 16 :=
  Nat.mod_lt _ (by decide)

theorem readHex_hex
    (bytes : List UInt8) :
    readHex (hex bytes) = some bytes := by
  induction bytes with
  | nil => rfl
  | cons b bytes ih =>
      have hbyte : UInt8.ofNat (16 * (b.toNat / 16) + b.toNat % 16) = b := by
        rw [Nat.div_add_mod, UInt8.ofNat_toNat]
      change readHex (Nat.digitChar (b.toNat / 16) :: Nat.digitChar (b.toNat % 16) ::
        hex bytes) = _
      simp only [readHex, (digitChar_spec (high_lt b)).1,
        (digitChar_spec (low_lt b)).1, ih, hbyte]

theorem filter_hyphen_hex
    (bytes : List UInt8) :
    (hex bytes).filter (· ≠ '-') = hex bytes := by
  refine List.filter_eq_self.mpr fun c hc => ?_
  obtain ⟨b, _, hb⟩ := List.mem_flatMap.mp hc
  simp only [hexByte, List.mem_cons, List.not_mem_nil, or_false] at hb
  rcases hb with rfl | rfl
  · exact decide_eq_true (digitChar_spec (high_lt b)).2.1
  · exact decide_eq_true (digitChar_spec (low_lt b)).2.1

theorem map_toLower_hex
    (bytes : List UInt8) :
    (hex bytes).map Char.toLower = hex bytes := by
  induction bytes with
  | nil => rfl
  | cons b bytes ih =>
      change Char.toLower _ :: Char.toLower _ :: (hex bytes).map Char.toLower = _
      rw [ih, (digitChar_spec (high_lt b)).2.2, (digitChar_spec (low_lt b)).2.2]
      rfl

theorem hex_append
    (bytes bytes' : List UInt8) :
    hex bytes ++ hex bytes' = hex (bytes ++ bytes') :=
  List.flatMap_append.symm

theorem filter_hyphen_hyphenate
    (bytes : List UInt8) :
    (hyphenate bytes).filter (· ≠ '-') = hex bytes := by
  have hjoin : bytes.take 4 ++ ((bytes.drop 4).take 2 ++ ((bytes.drop 6).take 2 ++
      ((bytes.drop 8).take 2 ++ bytes.drop 10))) = bytes := by
    have hdrop (n m : Nat) :
        (bytes.drop n).take m ++ bytes.drop (n + m) = bytes.drop n := by
      rw [← List.drop_drop, List.take_append_drop]
    rw [hdrop 8 2, hdrop 6 2, hdrop 4 2, List.take_append_drop]
  have hhyphen (s : List Char) :
      ('-' :: s).filter (· ≠ '-') = s.filter (· ≠ '-') := by
    simp
  simp only [hyphenate, List.filter_append, hhyphen, filter_hyphen_hex, hex_append]
  rw [hjoin]

theorem map_toLower_hyphenate
    (bytes : List UInt8) :
    (hyphenate bytes).map Char.toLower = hyphenate bytes := by
  have hhyphen : Char.toLower '-' = '-' := by decide
  simp only [hyphenate, List.map_append, List.map_cons, hhyphen, map_toLower_hex]

/-- The hyphenated form, which is also read without its hyphens and in upper
case. -/
def hyphenated : UuidText where
  toStr u := String.ofList (hyphenate u.1)
  parseStr s :=
    ((readHex (s.toList.filter (· ≠ '-'))).bind Uuid.fromSlice).filter fun u =>
      s.toList.map Char.toLower ∈ [hyphenate u.1, hex u.1]
  parseStr_toStr u := by
    simp only [String.toList_ofList, filter_hyphen_hyphenate, readHex_hex,
      map_toLower_hyphenate, Option.bind_some, Uuid.fromSlice_eq_some_iff.mpr rfl]
    simp
  toStr_ne_empty u := by
    intro h
    have hlist := congrArg String.toList h
    simp [hyphenate] at hlist

end Hexadecimal

end CockatielEngine
