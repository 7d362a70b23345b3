import AiSwitch.Common.Json

/-!
# Adapters and their transport

`adapter` (`adapter/adapter.h`) is the interface to an AI provider. A streaming call reports
through its callback, so it is a program on the list of invocations made so far. Under an adapter
lies libcurl: one handle, one POST, and the blocks handed to a write function until the transfer
ends.
-/

namespace AiSwitch

open ByteString Effect Nlohmann

/-- One invocation of a `stream_callback`. -/
structure StreamCall where
  content : Bytes
  done : Bool
deriving DecidableEq, Repr

/-- A call that reports through a `stream_callback`. -/
abbrev Streaming (α : Type) := Prog (List StreamCall) Exn α

/-- Invoke the callback. -/
def callback (content : Bytes) (done : Bool) : Streaming Unit :=
  Prog.modify (· ++ [⟨content, done⟩])

/-- A call of the callback is recorded. -/
@[simp] theorem callback_apply (content : Bytes) (done : Bool) (calls : List StreamCall) :
    callback content done calls = (.ok (), calls ++ [⟨content, done⟩]) := rfl

/-- An `adapter` together with the provider behind it. -/
structure Adapter where
  modelPrefix : Bytes
  chatCompletion : Json → Outcome Exn Json
  chatCompletionStream : Json → Streaming Unit

/-- The `0.7` that adapters send where a request sets no temperature, as a double. -/
def defaultTemperature : ℚ := 6305039478318694 / 2 ^ 53

/-! ## libcurl -/

/-- The POST that a handle is set up for. -/
structure HttpPost where
  url : Bytes
  headers : List Bytes
  body : Bytes
deriving DecidableEq

/-- A `CURLcode`: the two values an adapter distinguishes, any other with its text. -/
inductive CurlCode where
  | ok
  | writeError
  | other (strerror : Bytes)
deriving DecidableEq, Repr

/-- `curl_easy_strerror` -/
def CurlCode.strerror : CurlCode → Bytes
  | ok => utf8 "No error"
  | writeError => utf8 "Failed writing received data to disk/application"
  | other text => text

/-- A transfer: the blocks handed to the write function, the code that `curl_easy_perform` returns
and the HTTP status. -/
structure Transfer where
  blocks : List Bytes
  res : CurlCode
  httpCode : ℤ
deriving DecidableEq

/-- The transfer that each POST leads to, `none` where `curl_easy_init` fails. -/
abbrev Network := HttpPost → Option Transfer

def curlInitFailed : Exn := .runtimeError (utf8 "初始化 libcurl 失败")

/-- `http_post` after `curl_easy_perform`. -/
def checkResponse (t : Transfer) : Outcome Exn Bytes :=
  if t.res ≠ .ok then
    .throw (.runtimeError (utf8 "HTTP 请求失败: " ++ t.res.strerror))
  else if t.httpCode ≠ 200 then
    .throw (.runtimeError (utf8 "API 返回错误 (HTTP " ++ utf8 (toString t.httpCode) ++ utf8 "): " ++
      t.blocks.flatten))
  else .ok t.blocks.flatten

/-- `http_post_stream` after `curl_easy_perform`. -/
def checkTransfer (t : Transfer) : Outcome Exn Unit :=
  if t.res ≠ .ok ∧ t.res ≠ .writeError then
    .throw (.runtimeError (utf8 "HTTP 请求失败: " ++ t.res.strerror))
  else if t.httpCode ≠ 200 then
    .throw (.runtimeError (utf8 "API 返回错误 (HTTP " ++ utf8 (toString t.httpCode) ++ utf8 ")"))
  else .ok ()

/-- The transfer ends without an error that `http_post_stream` reports. -/
def Transfer.Succeeded (t : Transfer) : Prop :=
  (t.res = .ok ∨ t.res = .writeError) ∧ t.httpCode = 200

instance (t : Transfer) : Decidable t.Succeeded := inferInstanceAs (Decidable (_ ∧ _))

/-- A transfer that has succeeded passes the check. -/
theorem checkTransfer_of_succeeded {t : Transfer} (h : t.Succeeded) : checkTransfer t = .ok () := by
  obtain ⟨hres, hcode⟩ := h
  rw [checkTransfer, if_neg (by tauto), if_neg (by simpa using hcode)]

/-- A transfer that has not succeeded is thrown. -/
theorem checkTransfer_of_not_succeeded {t : Transfer} (h : ¬ t.Succeeded) :
    ∃ what, checkTransfer t = .throw (.runtimeError what) := by
  rw [checkTransfer]
  split
  · exact ⟨_, rfl⟩
  · rename_i hres
    rw [if_pos]
    · exact ⟨_, rfl⟩
    · intro hcode
      exact h ⟨by tauto, hcode⟩

/-- The answer of a failed parse of a provider's response. -/
def parseErrorDocument (what : Bytes) : Json :=
  .obj [("error", .obj [
    ("code", .lit "parse_error"),
    ("message", .string (utf8 "解析 AI 响应失败: " ++ cstr what))])]

end AiSwitch
