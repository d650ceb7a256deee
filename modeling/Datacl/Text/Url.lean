import Datacl.Lib.Words

/-!
# URL coding

`url_encode` and `url_decode`. A string is given with its NUL, and what a function writes is given
with the NUL as well. A `char` is signed and becomes an `int` before it is shifted or looked at.
-/

namespace Datacl

open Words

/-- The promotion of a `char` to `int`. -/
def promote (ch : Byte) : BitVec 32 := ch.signExtend 32

def ord (c : Char) : Byte := BitVec.ofNat 8 c.toNat

def isdigit (ch : BitVec 32) : Bool :=
  (promote (ord '0')).sle ch && ch.sle (promote (ord '9'))

def isalnum (ch : BitVec 32) : Bool :=
  isdigit ch || ((promote (ord 'a')).sle ch && ch.sle (promote (ord 'z'))) ||
    ((promote (ord 'A')).sle ch && ch.sle (promote (ord 'Z')))

def tolower (ch : BitVec 32) : BitVec 32 :=
  if (promote (ord 'A')).sle ch && ch.sle (promote (ord 'Z')) then ch + 32 else ch

/-- `from_hex` -/
def fromHex (ch : Byte) : Byte :=
  (if isdigit (promote ch) then promote ch - promote (ord '0')
    else tolower (promote ch) - promote (ord 'a') + 10).setWidth 8

def hex : List Byte := "0123456789abcdef".toList.map ord

/-- `to_hex` -/
def toHex (code : Byte) : Byte := hex.getD (promote code &&& 15).toNat 0

/-- The characters that `url_encode` leaves as they are. -/
def unreserved (ch : Byte) : Bool :=
  isalnum (promote ch) || ch == ord '-' || ch == ord '_' || ch == ord '.' || ch == ord '~'

/-- What `url_encode` writes for one character. -/
def encodeByte (ch : Byte) : List Byte :=
  if unreserved ch then [ch]
  else if ch = ord ' ' then [ord '+']
  else [ord '%', toHex (((promote ch).sshiftRight 4).setWidth 8),
    toHex ((promote ch &&& 15).setWidth 8)]

def encodeLoop : List Byte → List Byte
  | [] => []
  | ch :: pstr => if ch = 0 then [] else encodeByte ch ++ encodeLoop pstr

/-- `url_encode` -/
def urlEncode (inStr : List Byte) : List Byte := encodeLoop inStr ++ [0]

/-- The character that two hexadecimal digits stand for. -/
def decodeHex (hi lo : Byte) : Byte :=
  (promote (fromHex hi) <<< 4 ||| promote (fromHex lo)).setWidth 8

def decodeLoop : List Byte → List Byte
  | [] => []
  | ch :: pstr =>
    if ch = 0 then []
    else if ch = ord '%' then
      match pstr with
      | hi :: lo :: rest =>
        -- a percent sign in front of fewer than two characters is dropped
        if hi ≠ 0 ∧ lo ≠ 0 then decodeHex hi lo :: decodeLoop rest
        else decodeLoop (hi :: lo :: rest)
      | rest => decodeLoop rest
    else if ch = ord '+' then ord ' ' :: decodeLoop pstr
    else ch :: decodeLoop pstr

/-- `url_decode`; it refuses the empty string. -/
def urlDecode (inStr : List Byte) : Option (List Byte) :=
  if inStr.headD 0 = 0 then none else some (decodeLoop inStr ++ [0])

/-- Unreserved characters, plus signs, and percent signs before two hexadecimal digits. -/
inductive UrlText : List Byte → Prop
  | nil : UrlText []
  | unreserved {ch : Byte} {s : List Byte} : unreserved ch → UrlText s → UrlText (ch :: s)
  | plus {s : List Byte} : UrlText s → UrlText (ord '+' :: s)
  | percent {hi lo : Byte} {s : List Byte} :
    hi ∈ hex → lo ∈ hex → UrlText s → UrlText (ord '%' :: hi :: lo :: s)

/-! ### One character -/

lemma toHex_mem_hex : ∀ code : Byte, toHex code ∈ hex := by decide +kernel

lemma hex_ne_zero : ∀ h ∈ hex, h ≠ 0 := by decide

lemma toHex_ne_zero (code : Byte) : toHex code ≠ 0 := hex_ne_zero _ (toHex_mem_hex code)

lemma decodeHex_toHex : ∀ ch : Byte,
    decodeHex (toHex (((promote ch).sshiftRight 4).setWidth 8))
      (toHex ((promote ch &&& 15).setWidth 8)) = ch := by
  decide +kernel

lemma unreserved_plain : ∀ ch : Byte, unreserved ch → ch ≠ 0 ∧ ch ≠ ord '%' ∧ ch ≠ ord '+' := by
  decide +kernel

lemma decodeLoop_hex {hi lo : Byte} (hhi : hi ≠ 0) (hlo : lo ≠ 0) (s : List Byte) :
    decodeLoop (ord '%' :: hi :: lo :: s) = decodeHex hi lo :: decodeLoop s := by
  have hpercent : ord '%' ≠ 0 := by decide
  rw [decodeLoop, if_neg hpercent, if_pos rfl]
  exact if_pos ⟨hhi, hlo⟩

lemma decodeLoop_plain {ch : Byte} (hzero : ch ≠ 0) (hpercent : ch ≠ ord '%') (hplus : ch ≠ ord '+')
    (s : List Byte) : decodeLoop (ch :: s) = ch :: decodeLoop s := by
  rw [decodeLoop.eq_def]
  simp only [if_neg hzero, if_neg hpercent, if_neg hplus]

lemma decodeLoop_plus (s : List Byte) : decodeLoop (ord '+' :: s) = ord ' ' :: decodeLoop s := by
  have hzero : ord '+' ≠ 0 := by decide
  have hpercent : ord '+' ≠ ord '%' := by decide
  rw [decodeLoop.eq_def]
  simp only [if_neg hzero, if_neg hpercent, if_true]

lemma decodeLoop_encodeByte {ch : Byte} (s : List Byte) :
    decodeLoop (encodeByte ch ++ s) = ch :: decodeLoop s := by
  rw [encodeByte]
  split_ifs with hplain hspace
  · obtain ⟨hzero, hpercent, hplus⟩ := unreserved_plain ch hplain
    rw [List.singleton_append, decodeLoop_plain hzero hpercent hplus]
  · rw [hspace, List.singleton_append, decodeLoop_plus]
  · rw [List.cons_append, List.cons_append, List.singleton_append,
      decodeLoop_hex (toHex_ne_zero _) (toHex_ne_zero _), decodeHex_toHex]

lemma length_encodeByte (ch : Byte) : (encodeByte ch).length ≤ 3 := by
  rw [encodeByte]
  split_ifs <;> simp

lemma UrlText.encodeByte {s : List Byte} (hs : UrlText s) (ch : Byte) :
    UrlText (encodeByte ch ++ s) := by
  rw [Datacl.encodeByte]
  split_ifs with hplain hspace
  · exact .unreserved hplain hs
  · exact .plus hs
  · exact .percent (toHex_mem_hex _) (toHex_mem_hex _) hs

lemma encodeByte_headD : ∀ ch : Byte, (encodeByte ch).headD 0 ≠ 0 := by decide +kernel

/-! ### The whole string -/

lemma encodeLoop_cons {ch : Byte} (hch : ch ≠ 0) (s : List Byte) :
    encodeLoop (ch :: s) = encodeByte ch ++ encodeLoop s := if_neg hch

lemma length_encodeLoop {s : List Byte} (hs : 0 ∉ s) :
    (encodeLoop (s ++ [0])).length ≤ 3 * s.length := by
  induction s with
  | nil => simp [encodeLoop]
  | cons ch s ih =>
    rw [List.mem_cons, not_or] at hs
    have hch := length_encodeByte ch
    have hrest := ih hs.2
    rw [List.cons_append, encodeLoop_cons (Ne.symm hs.1), List.length_append, List.length_cons]
    omega

lemma urlText_encodeLoop {s : List Byte} (hs : 0 ∉ s) : UrlText (encodeLoop (s ++ [0])) := by
  induction s with
  | nil => exact .nil
  | cons ch s ih =>
    rw [List.mem_cons, not_or] at hs
    rw [List.cons_append, encodeLoop_cons (Ne.symm hs.1)]
    exact (ih hs.2).encodeByte ch

lemma decodeLoop_encodeLoop {s : List Byte} (hs : 0 ∉ s) :
    decodeLoop (encodeLoop (s ++ [0]) ++ [0]) = s := by
  induction s with
  | nil => rfl
  | cons ch s ih =>
    rw [List.mem_cons, not_or] at hs
    rw [List.cons_append, encodeLoop_cons (Ne.symm hs.1), List.append_assoc,
      decodeLoop_encodeByte, ih hs.2]

lemma urlDecode_urlEncode {s : List Byte} (hne : s ≠ []) (hs : 0 ∉ s) :
    urlDecode (urlEncode (s ++ [0])) = some (s ++ [0]) := by
  obtain ⟨ch, t, rfl⟩ := List.exists_cons_of_ne_nil hne
  have hch : ch ≠ 0 := fun h => hs (h ▸ List.mem_cons_self)
  have hhead : (urlEncode (ch :: t ++ [0])).headD 0 ≠ 0 := by
    have hfirst := encodeByte_headD ch
    rw [urlEncode, List.cons_append, encodeLoop_cons hch, List.append_assoc]
    cases hcode : encodeByte ch with
    | nil => exact absurd (hcode ▸ rfl) hfirst
    | cons c cs => simpa [hcode] using hfirst
  rw [urlDecode, if_neg hhead, urlEncode, decodeLoop_encodeLoop hs]

/-- The result of `url_encode` fits into its buffer and is plain text from which `url_decode` gets
the string back. -/
theorem urlEncode_roundTrip {s : List Byte} (hne : s ≠ []) (hs : 0 ∉ s) :
    urlDecode (urlEncode (s ++ [0])) = some (s ++ [0]) ∧
      (urlEncode (s ++ [0])).length ≤ 3 * s.length + 1 ∧
      ∃ out, urlEncode (s ++ [0]) = out ++ [0] ∧ UrlText out := by
  refine ⟨urlDecode_urlEncode hne hs, ?_, _, rfl, urlText_encodeLoop hs⟩
  rw [urlEncode, List.length_append, List.length_singleton]
  exact Nat.succ_le_succ (length_encodeLoop hs)

theorem urlEncode_roundTrip_accent :
    urlDecode (urlEncode ([0xC3, 0xA9, 0x20, 0x25, 0x2B] ++ [0])) =
        some ([0xC3, 0xA9, 0x20, 0x25, 0x2B] ++ [0]) ∧
      (urlEncode ([0xC3, 0xA9, 0x20, 0x25, 0x2B] ++ [0])).length ≤ 3 * 5 + 1 ∧
      ∃ out, urlEncode ([0xC3, 0xA9, 0x20, 0x25, 0x2B] ++ [0]) = out ++ [0] ∧ UrlText out :=
  urlEncode_roundTrip (s := [0xC3, 0xA9, 0x20, 0x25, 0x2B]) (by decide) (by decide)

end Datacl
