import AiSwitch.Common.ByteString
import AiSwitch.Common.Effect

/-!
# Exceptions of C++ code

The exceptions a program of the standard library and `nlohmann::json` meets, all of them
`std::exception`s, and the string operation that throws.
-/

open ByteString Effect

/-- The exceptions of `nlohmann::json`, `std::runtime_error`, `std::out_of_range` and
`std::bad_optional_access`, with their `what()`. -/
inductive Exn where
  | parseError (what : Bytes)
  | typeError (what : Bytes)
  | outOfRange (what : Bytes)
  | runtimeError (what : Bytes)
  | stdOutOfRange (what : Bytes)
  | badOptionalAccess (what : Bytes)
deriving DecidableEq, Repr

/-- `what()` -/
def Exn.what : Exn → Bytes
  | parseError w | typeError w | outOfRange w | runtimeError w | stdOutOfRange w
  | badOptionalAccess w => w

namespace ByteString

/-- `substr(pos, count)`, with no `count` up to the end. -/
def substr (s : Bytes) (pos : ℕ) (count : Option ℕ) : Outcome Exn Bytes :=
  if pos ≤ s.length then
    .ok (match count with
      | none => s.drop pos
      | some n => (s.drop pos).take n)
  else
    .throw (.stdOutOfRange (utf8 ("basic_string::substr: __pos (which is " ++ toString pos ++
      ") > this->size() (which is " ++ toString s.length ++ ")")))

/-- From a position within the text `substr` does not throw. -/
theorem substr_of_le {s : Bytes} {pos : ℕ} (h : pos ≤ s.length) (count : Option ℕ) :
    substr s pos count = .ok (match count with
      | none => s.drop pos
      | some n => (s.drop pos).take n) := if_pos h

end ByteString
