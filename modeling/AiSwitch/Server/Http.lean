import AiSwitch.Common.ByteString

/-!
# HTTP messages

The part of `boost::beast::http` that the gateway reads and writes. A request is delivered with its
target as raw bytes, and its header is kept apart from its body, because everything before the
session's own handling looks at the header alone.
-/

namespace AiSwitch

open ByteString

namespace Http

/-- `http::verb` -/
inductive Verb where
  | unknown
  | delete | get | head | post | put | connect | options | trace
  | copy | lock | mkcol | move | propfind | proppatch | search | unlock
  | bind | rebind | unbind | acl
  | report | mkactivity | checkout | merge
  | msearch | notify | subscribe | unsubscribe
  | patch | purge
  | mkcalendar
  | link | unlink
deriving DecidableEq, Repr

/-- `http::to_string` -/
def Verb.toString : Verb → String
  | unknown => "<unknown>"
  | delete => "DELETE"
  | get => "GET"
  | head => "HEAD"
  | post => "POST"
  | put => "PUT"
  | connect => "CONNECT"
  | options => "OPTIONS"
  | trace => "TRACE"
  | copy => "COPY"
  | lock => "LOCK"
  | mkcol => "MKCOL"
  | move => "MOVE"
  | propfind => "PROPFIND"
  | proppatch => "PROPPATCH"
  | search => "SEARCH"
  | unlock => "UNLOCK"
  | bind => "BIND"
  | rebind => "REBIND"
  | unbind => "UNBIND"
  | acl => "ACL"
  | report => "REPORT"
  | mkactivity => "MKACTIVITY"
  | checkout => "CHECKOUT"
  | merge => "MERGE"
  | msearch => "M-SEARCH"
  | notify => "NOTIFY"
  | subscribe => "SUBSCRIBE"
  | unsubscribe => "UNSUBSCRIBE"
  | patch => "PATCH"
  | purge => "PURGE"
  | mkcalendar => "MKCALENDAR"
  | link => "LINK"
  | unlink => "UNLINK"

/-- `http::string_to_verb` -/
def stringToVerb (s : Bytes) : Option Verb :=
  [.unknown, .delete, .get, .head, .post, .put, .connect, .options, .trace, .copy, .lock, .mkcol,
    .move, .propfind, .proppatch, .search, .unlock, .bind, .rebind, .unbind, .acl, .report,
    .mkactivity, .checkout, .merge, .msearch, .notify, .subscribe, .unsubscribe, .patch, .purge,
    .mkcalendar, .link, .unlink].find? fun v => utf8 v.toString == s

/-- A verb's name is read back as the verb. -/
theorem stringToVerb_toString (v : Verb) : stringToVerb (utf8 v.toString) = some v := by
  cases v <;> decide +kernel

/-- Distinct methods have distinct texts. -/
theorem Verb.toString_inj {v w : Verb} (h : utf8 v.toString = utf8 w.toString) : v = w := by
  have hv := stringToVerb_toString v
  rw [h, stringToVerb_toString w] at hv
  exact (Option.some.inj hv).symm

/-- No verb's name has a space in it. -/
theorem Verb.space_notMem_toString (v : Verb) : (32 : UInt8) ∉ utf8 v.toString := by
  cases v <;> decide +kernel

/-- The statuses that the gateway answers with. -/
inductive Status where
  | ok
  | badRequest
  | unauthorized
  | notFound
  | tooManyRequests
  | badGateway
  | serviceUnavailable
deriving DecidableEq, Repr

/-- The status code. -/
def Status.code : Status → ℕ
  | ok => 200
  | badRequest => 400
  | unauthorized => 401
  | notFound => 404
  | tooManyRequests => 429
  | badGateway => 502
  | serviceUnavailable => 503

/-- An ASCII letter in lower case. -/
def lower (b : UInt8) : UInt8 := if 65 ≤ b ∧ b ≤ 90 then b + 32 else b

/-- Field names do not distinguish upper and lower case. -/
def sameName (a b : Bytes) : Bool := a.map lower == b.map lower

/-- The first value of a field. -/
def find (fields : List (Bytes × Bytes)) (name : String) : Option Bytes :=
  (fields.find? fun f => sameName f.1 (utf8 name)).map Prod.snd

/-- The header of a request. `keepAlive` is what Beast derives from the version and the
`Connection` field. -/
structure RequestHeader where
  method : Verb
  target : Bytes
  version : ℕ := 11
  fields : List (Bytes × Bytes) := []
  keepAlive : Bool := true
deriving DecidableEq, Repr

/-- A request, `http::request<http::string_body>`. -/
structure Request extends RequestHeader where
  body : Bytes
deriving DecidableEq, Repr

/-- `req.find(http::field::authorization)` -/
def RequestHeader.authorization (req : RequestHeader) : Option Bytes :=
  find req.fields "Authorization"

/-- A response, `http::response<http::string_body>`. -/
structure Response where
  status : Status
  version : ℕ
  keepAlive : Bool
  fields : List (Bytes × Bytes)
  body : Bytes
deriving DecidableEq, Repr

/-- `need_eof`, for a status that can have a body: without a length the end of the response is the
end of the connection. -/
def Response.needEof (res : Response) : Bool :=
  if (find res.fields "Content-Length").isSome then !res.keepAlive else true

end Http

end AiSwitch
