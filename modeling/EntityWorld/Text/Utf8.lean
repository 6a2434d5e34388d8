import EntityWorld.Bytes
set_option autoImplicit false

/-!
Reading UTF-8. A fault is located by the length of the sound part before it; it is either a
wrong sequence of known length or an input that stops inside a character.
-/
namespace EntityWorld.Text

/-- Where and how bytes stop being UTF-8; no length means that the input ends too early. -/
structure Utf8Error where
  soundUpTo : Nat
  length? : Option Nat
  deriving DecidableEq, Repr

def Utf8Error.message (e : Utf8Error) : String :=
  match e.length? with
  | some n => s!"invalid utf-8 sequence of {n} bytes from index {e.soundUpTo}"
  | none => s!"incomplete utf-8 byte sequence from index {e.soundUpTo}"

def utf8Width (b : UInt8) : Nat :=
  if b < 0x80 then 1
  else if 0xc2 ≤ b && b ≤ 0xdf then 2
  else if 0xe0 ≤ b && b ≤ 0xef then 3
  else if 0xf0 ≤ b && b ≤ 0xf4 then 4
  else 0

def isContinuation (b : UInt8) : Bool := 0x80 ≤ b && b ≤ 0xbf

/-- Second bytes allowed after a lead byte of three or four: no overlong forms, no surrogates,
nothing above U+10FFFF. -/
def allowsSecond (lead second : UInt8) : Bool :=
  if lead == 0xe0 then 0xa0 ≤ second && second ≤ 0xbf
  else if lead == 0xed then 0x80 ≤ second && second ≤ 0x9f
  else if lead == 0xf0 then 0x90 ≤ second && second ≤ 0xbf
  else if lead == 0xf4 then 0x80 ≤ second && second ≤ 0x8f
  else isContinuation second

def payload6 (b : UInt8) : Nat := (b &&& 0x3f).toNat

/-- The first character of `lead :: rest` and its width, or the length of the wrong sequence
(`none` if the input ends inside it). -/
def firstChar (lead : UInt8) (rest : Bytes) : Except (Option Nat) (Char × Nat) :=
  match utf8Width lead, rest with
  | 1, _ => .ok (Char.ofNat lead.toNat, 1)
  | 2, [] => .error none
  | 2, a :: _ =>
    if isContinuation a then .ok (Char.ofNat ((lead &&& 0x1f).toNat * 64 + payload6 a), 2)
    else .error (some 1)
  | 3, [] => .error none
  | 3, a :: rest =>
    if !allowsSecond lead a then .error (some 1)
    else match rest with
      | [] => .error none
      | b :: _ =>
        if isContinuation b then
          .ok (Char.ofNat (((lead &&& 0x0f).toNat * 64 + payload6 a) * 64 + payload6 b), 3)
        else .error (some 2)
  | 4, [] => .error none
  | 4, a :: rest =>
    if !allowsSecond lead a then .error (some 1)
    else match rest with
      | [] => .error none
      | b :: rest =>
        if !isContinuation b then .error (some 2)
        else match rest with
          | [] => .error none
          | c :: _ =>
            if isContinuation c then
              .ok (Char.ofNat ((((lead &&& 0x07).toNat * 64 + payload6 a) * 64 + payload6 b) * 64 +
                payload6 c), 4)
            else .error (some 3)
  | _, _ => .error (some 1)

def decodeUtf8From : Nat → Nat → Bytes → Except Utf8Error (List Char)
  | _, _, [] => .ok []
  | 0, offset, _ => .error ⟨offset, none⟩
  | fuel + 1, offset, b :: bs =>
    match firstChar b bs with
    | .error length? => .error ⟨offset, length?⟩
    | .ok (c, width) =>
      match decodeUtf8From fuel (offset + width) (bs.drop (width - 1)) with
      | .error e => .error e
      | .ok cs => .ok (c :: cs)

def decodeUtf8 (bs : Bytes) : Except Utf8Error String :=
  (decodeUtf8From bs.length 0 bs).map String.ofList

end EntityWorld.Text
