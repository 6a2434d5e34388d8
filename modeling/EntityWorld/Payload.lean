import EntityWorld.Value
import EntityWorld.Text.Utf8
import EntityWorld.Failure
set_option autoImplicit false

/-!
Payloads: the bytes in which a replicated value travels, and why they can be refused.
-/
namespace EntityWorld

inductive PayloadError where
  | wrongSize (expected got : Nat)
  | endOfInput
  | shortText
  | badBool (found : UInt8)
  | badTag (found : UInt8)
  | badVariant (found : UInt32) (count : Nat)
  | badChar
  | badText (cause : Text.Utf8Error)
  | refused (reason : String)
  deriving DecidableEq, Repr

def PayloadError.message : PayloadError → String
  | .wrongSize expected got => s!"SizeMismatch: expected {expected} bytes, got {got}"
  | .endOfInput => "io error: unexpected end of file"
  | .shortText => "io error: "
  | .badBool found => s!"invalid u8 while decoding bool, expected 0 or 1, found {found}"
  | .badTag found => s!"tag for enum is not valid, found {found}"
  | .badVariant found count =>
    "invalid value: integer " ++ String.singleton '\x60' ++ toString found ++
      String.singleton '\x60' ++ s!", expected variant index 0 <= i < {count}"
  | .badChar => "char is not valid"
  | .badText cause => s!"string is not valid utf8: {cause.message}"
  | .refused reason => reason

instance : Failing PayloadError := ⟨fun e => ⟨"PayloadError", e.message⟩⟩

structure PayloadCodec where
  encode : Value → Except PayloadError Bytes
  decode : Bytes → Except PayloadError Value

def PayloadCodec.Inverts (c : PayloadCodec) (v : Value) : Prop :=
  ∀ bs, c.encode v = .ok bs → c.decode bs = .ok v

/-- A plain value travels as its bytes, as many as the type has; another number of bytes is
refused. -/
def PayloadCodec.raw (t : HostType) : PayloadCodec where
  encode v := .ok (v.bytes.take t.size)
  decode bs :=
    if bs.length = t.size then .ok (.plain bs) else .error (.wrongSize t.size bs.length)

theorem PayloadCodec.raw_inverts (t : HostType) (bs : Bytes) (h : bs.length = t.size) :
    (PayloadCodec.raw t).Inverts (.plain bs) := by
  intro out ho
  cases ho
  simp [raw, Value.bytes, ← h]

end EntityWorld
