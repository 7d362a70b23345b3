import AiSwitch.Common.Json
import AiSwitch.Server.Http
import Mathlib.Logic.Function.Basic

/-!
# The router

`router` (`server/router.cpp`) keeps its handlers in one map whose key is the method, a space and
the path. No method contains a space, so a key determines both (`makeKey_inj`) and `dispatch` calls
the handler registered for exactly the method and target of the request.

Both kinds of response are built here. An error response is a document that may carry bytes of the
request, so building one can itself throw.
-/

namespace AiSwitch

open ByteString Effect Nlohmann Http

/-! ## Responses -/

/-- The common part of all responses. `prepare_payload` adds the length. -/
def makeResponse (status : Status) (version : ℕ) (keepAlive : Bool) (body : Bytes) : Response where
  status := status
  version := version
  keepAlive := keepAlive
  fields := [(utf8 "Server", utf8 "AI-switch/1.0"), (utf8 "Content-Type", utf8 "application/json"),
    (utf8 "Content-Length", utf8 (toString body.length))]
  body := body

/-- `make_json_response` -/
def makeJsonResponse (body : Bytes) (version : ℕ) (keepAlive : Bool) : Response :=
  makeResponse .ok version keepAlive body

/-- The document of an error. -/
def errorDocument (code : String) (message : Bytes) : Json :=
  .obj [("error", .obj [("code", .lit code), ("message", .string message)])]

/-- `make_error_response` -/
def makeErrorResponse (lib : Lib) (status : Status) (code : String) (message : Bytes)
    (version : ℕ) (keepAlive : Bool) : Outcome Exn Response := do
  return makeResponse status version keepAlive (← lib.dump (errorDocument code message))

/-- The error document can be dumped exactly when its message is UTF-8. -/
theorem isValid_errorDocument (code : String) (message : Bytes) :
    (errorDocument code message).isValid = true ↔ ValidUtf8 message := by
  unfold errorDocument
  rw [Json.isValid_obj_iff (by simp)]
  simp [Json.isValid_obj_iff, Json.isValid_lit]

/-- An error response can be built exactly from a message that is text. -/
theorem makeErrorResponse_of_validUtf8 {lib : Lib} {message : Bytes} (h : ValidUtf8 message)
    (status : Status) (code : String) (version : ℕ) (keepAlive : Bool) :
    makeErrorResponse lib status code message version keepAlive
      = .ok (makeResponse status version keepAlive (lib.text (errorDocument code message))) := by
  unfold makeErrorResponse
  rw [Lib.dump_of_isValid ((isValid_errorDocument code message).mpr h)]
  rfl

/-- A message that is not UTF-8 makes `dump` throw. -/
theorem makeErrorResponse_of_not_validUtf8 {lib : Lib} {message : Bytes} (h : ¬ ValidUtf8 message)
    (status : Status) (code : String) (version : ℕ) (keepAlive : Bool) :
    makeErrorResponse lib status code message version keepAlive
      = .throw (.typeError (utf8 (lib.invalidUtf8 (errorDocument code message)))) := by
  unfold makeErrorResponse
  rw [Lib.dump, if_neg (mt (isValid_errorDocument code message).mp h)]
  rfl

/-! ## Routes -/

/-- `make_key` -/
def makeKey (method : Verb) (path : Bytes) : Bytes := utf8 method.toString ++ utf8 " " ++ path

/-- The key of a route determines its method and its path. -/
theorem makeKey_inj {m₁ m₂ : Verb} {p₁ p₂ : Bytes} (h : makeKey m₁ p₁ = makeKey m₂ p₂) :
    m₁ = m₂ ∧ p₁ = p₂ := by
  have hspace : utf8 " " = [32] := by decide +kernel
  have key : ∀ m p, makeKey m p = utf8 m.toString ++ 32 :: p := by
    intro m p
    rw [makeKey, hspace, List.append_assoc, List.singleton_append]
  -- the method is what stands before the first space
  have hmethod : ∀ m p, (makeKey m p).takeWhile (· ≠ 32) = utf8 m.toString := by
    intro m p
    rw [key, List.takeWhile_append_of_pos, List.takeWhile_cons_of_neg (by simp), List.append_nil]
    intro b hb
    have hne : b ≠ 32 := fun h => Verb.space_notMem_toString m (h ▸ hb)
    simpa using hne
  have hm : m₁ = m₂ := Verb.toString_inj (by rw [← hmethod m₁ p₁, h, hmethod])
  subst hm
  rw [key, key] at h
  exact ⟨rfl, by simpa using h⟩

/-- A route handler, for an application with the state `σ`. -/
abbrev Handler (σ : Type) := Request → Prog σ Exn Response

/-- The routing table, a map from keys to handlers. -/
structure Router (σ : Type) where
  routes : Bytes → Option (Handler σ) := fun _ => none

namespace Router

variable {σ : Type}

/-- `add_route` -/
def addRoute (r : Router σ) (method : Verb) (path : Bytes) (handler : Handler σ) : Router σ where
  routes := Function.update r.routes (makeKey method path) (some handler)

/-- The handler registered for a method and a target. -/
def find (r : Router σ) (method : Verb) (target : Bytes) : Option (Handler σ) :=
  r.routes (makeKey method target)

/-- `dispatch` -/
def dispatch (r : Router σ) (lib : Lib) (req : Request) : Prog σ Exn Response :=
  match r.find req.method req.target with
  | some handler => handler req
  | none =>
    Prog.lift (makeErrorResponse lib .notFound "not_found" (utf8 "请求的路径不存在: " ++ req.target)
      req.version req.keepAlive)

/-- The empty router finds nothing. -/
@[simp] theorem find_empty (method : Verb) (target : Bytes) :
    ({} : Router σ).find method target = none := rfl

/-- A registered handler answers for its own method and path, and for no other. -/
theorem find_addRoute (r : Router σ) (m m' : Verb) (p p' : Bytes) (handler : Handler σ) :
    (r.addRoute m p handler).find m' p'
      = if m' = m ∧ p' = p then some handler else r.find m' p' := by
  unfold find addRoute
  split_ifs with h
  · obtain ⟨rfl, rfl⟩ := h
    exact Function.update_self _ _ _
  · apply Function.update_of_ne
    exact fun heq => h (makeKey_inj heq)

/-- A route that is found handles the request. -/
theorem dispatch_of_some {lib : Lib} {r : Router σ} {req : Request} {handler : Handler σ}
    (h : r.find req.method req.target = some handler) : r.dispatch lib req = handler req := by
  rw [dispatch, h]

/-- Without a route the answer is 404, with the target in its message. -/
theorem dispatch_of_none {lib : Lib} {r : Router σ} {req : Request}
    (h : r.find req.method req.target = none) :
    r.dispatch lib req = Prog.lift (makeErrorResponse lib .notFound "not_found"
      (utf8 "请求的路径不存在: " ++ req.target) req.version req.keepAlive) := by
  rw [dispatch, h]

end Router

end AiSwitch
