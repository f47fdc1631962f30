import Mathlib.Data.String.Basic
import RobotControl.Settings.LogLevel

/-!
Texts as bytes.

A text is kept as bytes, one to four for each character, and a place in it is a number of bytes. It
may be cut where a character begins or ends and nowhere else.

* `octets`: the bytes of a text.
* `eq_of_mem_octets`: a byte below 0x80 stands for itself and is never part of a longer character.
* `dropBytes_append`, `takeBytes_append`: between two characters a text can be cut.
* `Slice`: a piece of a text and the place where it begins.
* `cut?_append`: what is cut out is the piece between the two places.
-/

namespace RobotControl.Text

open LogLevel (dropBytes takeBytes)
open String (utf8EncodeChar utf8Len)

/-! ### Bytes of characters -/

/-- The bytes of a text, each written as the character with its number. -/
def octets (cs : List Char) : List Char :=
  cs.flatMap fun c => (utf8EncodeChar c).map Char.ofUInt8

theorem octets_cons (c : Char) (cs : List Char) : octets (c :: cs) = octets [c] ++ octets cs := by
  rw [← List.singleton_append, octets, List.flatMap_append]
  rfl

theorem octets_append (xs ys : List Char) : octets (xs ++ ys) = octets xs ++ octets ys :=
  List.flatMap_append

theorem length_octets (cs : List Char) : (octets cs).length = utf8Len cs := by
  induction cs with
  | nil => rfl
  | cons c cs ih =>
      have hc : (octets [c]).length = c.utf8Size := by
        simp [octets, String.length_utf8EncodeChar]
      rw [octets_cons, List.length_append, hc, ih, String.utf8Len_cons, Nat.add_comm]

theorem drop_octets_append (before cs : List Char) :
    (octets (before ++ cs)).drop (utf8Len before) = octets cs := by
  rw [octets_append, ← length_octets, List.drop_left]

/-- **A byte of ASCII is a character of its own**: no longer character has it among its bytes. -/
theorem eq_of_mem_octets {c d : Char} (h : d ∈ octets [c]) (ascii : d.toNat < 0x80) : d = c := by
  rw [octets, List.flatMap_singleton, List.mem_map] at h
  obtain ⟨b, hb, rfl⟩ := h
  have hd : (Char.ofUInt8 b).toNat = b.toNat := rfl
  have hc : c.toNat = c.val.toNat := rfl
  rw [hd] at ascii
  rw [← Char.toNat_inj, hd, hc]
  rw [String.utf8EncodeChar.eq_1] at hb
  split_ifs at hb
  · obtain rfl := List.mem_singleton.mp hb
    rw [UInt8.toNat_ofNat']
    omega
  all_goals
    -- A byte of a longer character is 0x80 or more.
    simp only [List.mem_cons, List.not_mem_nil, or_false, ← UInt8.toNat_inj,
      UInt8.toNat_ofNat'] at hb
    omega

/-! ### Places -/

theorem lt_utf8Len_append_cons (before : List Char) (c : Char) (cs : List Char) :
    utf8Len before < utf8Len (before ++ c :: cs) := by
  have := c.utf8Size_pos
  rw [String.utf8Len_append, String.utf8Len_cons]
  omega

/-- Between the first and the last byte of a character no other character begins. -/
theorem eq_of_utf8Len_lt {xs ys before rest : List Char} {c d : Char}
    (h : before ++ c :: rest = xs ++ d :: ys) (le : utf8Len before ≤ utf8Len xs)
    (lt : utf8Len xs < utf8Len (before ++ [c])) : c = d := by
  rw [String.utf8Len_append, String.utf8Len_cons, String.utf8Len_nil, Nat.zero_add] at lt
  rcases List.append_eq_append_iff.mp h with ⟨zs, rfl, heq⟩ | ⟨zs, rfl, heq⟩
  · cases zs with
    | nil => exact List.head_eq_of_cons_eq heq
    | cons e zs =>
        obtain rfl := List.head_eq_of_cons_eq heq
        rw [String.utf8Len_append, String.utf8Len_cons] at lt
        omega
  · cases zs with
    | nil => exact (List.head_eq_of_cons_eq heq).symm
    | cons e zs =>
        have := e.utf8Size_pos
        rw [String.utf8Len_append, String.utf8Len_cons] at le
        omega

/-! ### Cutting -/

theorem dropBytes_cons (size : Nat) (c : Char) (cs : List Char) :
    dropBytes (size + c.utf8Size) (c :: cs) = dropBytes size cs := by
  have hpos := c.utf8Size_pos
  cases h : size + c.utf8Size with
  | zero => omega
  | succ n => rw [dropBytes, if_pos (by omega), ← h, Nat.add_sub_cancel]

theorem takeBytes_cons (size : Nat) (c : Char) (cs : List Char) :
    takeBytes (size + c.utf8Size) (c :: cs) = (takeBytes size cs).map (c :: ·) := by
  have hpos := c.utf8Size_pos
  cases h : size + c.utf8Size with
  | zero => omega
  | succ n => rw [takeBytes, if_pos (by omega), ← h, Nat.add_sub_cancel]

theorem dropBytes_append (before cs : List Char) :
    dropBytes (utf8Len before) (before ++ cs) = some cs := by
  induction before with
  | nil => rw [String.utf8Len_nil, List.nil_append, dropBytes]
  | cons c before ih => rw [String.utf8Len_cons, List.cons_append, dropBytes_cons, ih]

theorem takeBytes_append (part cs : List Char) :
    takeBytes (utf8Len part) (part ++ cs) = some part := by
  induction part with
  | nil => rw [String.utf8Len_nil, List.nil_append, takeBytes]
  | cons c part ih =>
      rw [String.utf8Len_cons, List.cons_append, takeBytes_cons, ih, Option.map_some]

/-- A piece of a text, with the byte where it begins. -/
structure Slice where
  start : Nat
  text : List Char
deriving DecidableEq, Repr

/-- The byte behind the slice. -/
def Slice.stop (slice : Slice) : Nat :=
  slice.start + utf8Len slice.text

/-- The slice stands in the text where it says, between two of its characters. -/
def Slice.StandsIn (slice : Slice) (text : List Char) : Prop :=
  ∃ before behind, text = before ++ (slice.text ++ behind) ∧ slice.start = utf8Len before

/-- The byte belongs to the slice. -/
def Slice.Holds (slice : Slice) (byte : Nat) : Prop :=
  slice.start ≤ byte ∧ byte < slice.stop

/-- Cuts a text at two bytes. It cannot be cut inside a character, nor backwards. -/
def cut? (text : List Char) (start stop : Nat) : Option Slice :=
  if start ≤ stop then ((dropBytes start text).bind (takeBytes (stop - start))).map (Slice.mk start)
  else none

/-- **What is cut out is the piece between the two places.** -/
theorem cut?_append (before part behind : List Char) :
    cut? (before ++ (part ++ behind)) (utf8Len before) (utf8Len (before ++ part)) =
      some ⟨utf8Len before, part⟩ := by
  have hsize : utf8Len before + utf8Len part - utf8Len before = utf8Len part :=
    Nat.add_sub_cancel_left _ _
  rw [cut?, String.utf8Len_append, if_pos (Nat.le_add_right _ _), hsize, dropBytes_append,
    Option.bind_some, takeBytes_append, Option.map_some]

end RobotControl.Text
