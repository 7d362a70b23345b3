import AiSwitch.Common.KeyedMap
import AiSwitch.Main

/-!
# The route table

`router` flattens a method and a path to one string and keeps the handlers in a map of these
strings. `find_register` says that after any calls of `add_route` this is the map on pairs of a
method and a path, and `dispatch_is_map_iff` what follows for a request: the handler that `dispatch`
calls is the last one registered for its method and its target, and no other is called.

Which handlers are called is seen in a second state: `traced` makes every handler leave its position
in the sequence of registrations.
-/

namespace AiSwitch

open ByteString Effect Nlohmann Http KeyedMap

/-- A call of `add_route`. -/
structure Registration (σ : Type) where
  method : Verb
  path : Bytes
  handler : Handler σ

namespace Registration

variable {σ : Type}

/-- What the handler is registered for. -/
def route (c : Registration σ) : Verb × Bytes := (c.method, c.path)

/-- The handler is registered for the method and the full target of the request. -/
def Matches (c : Registration σ) (req : Request) : Prop := c.route = (req.method, req.target)

/-- The handler leaves `i` where it is called. -/
def marked (i : ℕ) (c : Registration σ) : Registration (σ × List ℕ) where
  method := c.method
  path := c.path
  handler req := do
    Prog.modify fun s => (s.1, s.2 ++ [i])
    Prog.zoom Prod.fst (fun s t => (t, s.2)) (c.handler req)

/-- A marked handler does what the handler does, and notes its position. -/
theorem marked_handler_apply (i : ℕ) (c : Registration σ) (req : Request) (s : σ × List ℕ) :
    (c.marked i).handler req s
      = ((c.handler req s.1).1, (c.handler req s.1).2, s.2 ++ [i]) := rfl

/-- Marking a registration leaves its key as it is. -/
theorem matches_marked_iff (i : ℕ) (c : Registration σ) (req : Request) :
    (c.marked i).Matches req ↔ c.Matches req := Iff.rfl

end Registration

namespace Router

variable {σ : Type}

/-- The router after the calls of `add_route`, one after the other. -/
def register (calls : List (Registration σ)) : Router σ :=
  calls.foldl (fun r c => r.addRoute c.method c.path c.handler) {}

/-- The calls of `add_route` with handlers that leave their positions. -/
def traced (calls : List (Registration σ)) : List (Registration (σ × List ℕ)) :=
  calls.mapIdx fun i c => c.marked i

/-- **The routes are a map on pairs.** A request meets the handler registered last for its method
and its target, and no other. A request for which there is none is answered by a 404, and no handler
is called. -/
structure DispatchesAsMap (lib : Lib) (calls : List (Registration σ)) (req : Request) (s : σ) :
    Prop where
  answer : ∀ i c, IsLast (·.Matches req) calls i c →
    (register calls).dispatch lib req s = c.handler req s
  called : ∀ i c, IsLast (·.Matches req) calls i c →
    ((register (traced calls)).dispatch lib req (s, [])).2.2 = [i]
  notFound : (∀ c ∈ calls, ¬ c.Matches req) ↔
    ∃ res, (register (traced calls)).dispatch lib req (s, []) = (.ok res, s, []) ∧
      res.status = .notFound

/-! ## The map -/

/-- The last registration is made on the table of those before it. -/
theorem register_concat (calls : List (Registration σ)) (c : Registration σ) :
    register (calls ++ [c]) = (register calls).addRoute c.method c.path c.handler := by
  rw [register, List.foldl_append]
  rfl

/-- A key's handler is the one that was last registered under the key. -/
theorem routes_register (calls : List (Registration σ)) (key : Bytes) :
    (register calls).routes key
      = (ofList (fun c => makeKey c.method c.path) calls key).map Registration.handler := by
  induction calls using List.reverseRecOn with
  | nil => rfl
  | append_singleton calls c ih =>
    rw [register_concat, ofList_concat]
    by_cases hkey : key = makeKey c.method c.path
    · subst hkey
      rw [Function.update_self]
      exact Function.update_self _ _ _
    · rw [Function.update_of_ne hkey]
      exact (Function.update_of_ne hkey _ _).trans ih

/-- **The flat table is the table on pairs.** -/
theorem find_register (calls : List (Registration σ)) (method : Verb) (target : Bytes) :
    (register calls).find method target
      = (ofList Registration.route calls (method, target)).map Registration.handler := by
  have hencode : Function.Injective fun r : Verb × Bytes => makeKey r.1 r.2 := by
    intro r r' h
    obtain ⟨hm, hp⟩ := makeKey_inj h
    exact Prod.ext hm hp
  rw [find, routes_register, ← ofList_comp_encode hencode]
  rfl

/-! ## A request -/

variable {lib : Lib} {calls : List (Registration σ)} {req : Request}

/-- `dispatch` runs the last registration that matches the request. -/
theorem dispatch_register_of_isLast {i : ℕ} {c : Registration σ}
    (h : IsLast (·.Matches req) calls i c) : (register calls).dispatch lib req = c.handler req := by
  apply dispatch_of_some
  rw [find_register, ofList_of_isLast h, Option.map_some]

/-- Where no registration matches, `dispatch` answers 404. -/
theorem dispatch_register_of_none (h : ∀ c ∈ calls, ¬ c.Matches req) :
    (register calls).dispatch lib req = Prog.lift (makeErrorResponse lib .notFound "not_found"
      (utf8 "请求的路径不存在: " ++ req.target) req.version req.keepAlive) := by
  apply dispatch_of_none
  rw [find_register, ofList_eq_none h, Option.map_none]

/-- Marking the registrations leaves the last match where it is. -/
theorem isLast_traced {i : ℕ} {c : Registration σ} (h : IsLast (·.Matches req) calls i c) :
    IsLast (·.Matches req) (traced calls) i (c.marked i) :=
  h.mapIdx fun j c' => c'.matches_marked_iff j req

/-- Marking the registrations adds no match. -/
theorem not_matches_traced (h : ∀ c ∈ calls, ¬ c.Matches req) :
    ∀ c ∈ traced calls, ¬ c.Matches req := by
  intro c hc
  obtain ⟨i, hi, rfl⟩ := List.mem_mapIdx.mp hc
  exact h _ (List.getElem_mem hi)

/-- A handler that is called leaves its position. -/
theorem dispatch_traced_of_isLast {i : ℕ} {c : Registration σ}
    (h : IsLast (·.Matches req) calls i c) (s : σ) :
    (register (traced calls)).dispatch lib req (s, [])
      = ((c.handler req s).1, (c.handler req s).2, [i]) := by
  rw [dispatch_register_of_isLast (isLast_traced h), Registration.marked_handler_apply]
  rfl

/-- Where there is no handler, the 404 is built, unless the target is not text. -/
theorem notFound_iff (lib : Lib) (h : ∀ c ∈ calls, ¬ c.Matches req) (s : σ) :
    (∃ res, (register calls).dispatch lib req s = (.ok res, s) ∧ res.status = .notFound) ↔
      ValidUtf8 req.target := by
  rw [dispatch_register_of_none h, Prog.lift_apply,
    ← validUtf8_append_iff (validUtf8_utf8 "请求的路径不存在: ")]
  constructor
  · rintro ⟨res, hres, -⟩
    by_contra hvalid
    rw [makeErrorResponse_of_not_validUtf8 hvalid] at hres
    cases hres
  · intro hvalid
    rw [makeErrorResponse_of_validUtf8 hvalid]
    exact ⟨_, rfl, rfl⟩

/-- A request for which there is a handler is dispatched as by a map. -/
theorem dispatchesAsMap_of_matches (hmatch : ∃ c ∈ calls, c.Matches req) (s : σ) :
    DispatchesAsMap lib calls req s where
  answer i c h := by rw [dispatch_register_of_isLast h]
  called i c h := by rw [dispatch_traced_of_isLast h]
  notFound := by
    refine iff_of_false (by simpa using hmatch) ?_
    rintro ⟨res, hres, -⟩
    obtain ⟨i, c, hlast⟩ := exists_isLast hmatch
    rw [dispatch_traced_of_isLast hlast] at hres
    have hcalled : [i] = [] := congrArg (fun r => r.2.2) hres
    exact absurd hcalled (List.cons_ne_nil _ _)

/-- A request without a handler is dispatched as by a map if its target is UTF-8. -/
theorem dispatchesAsMap_iff_of_none (h : ∀ c ∈ calls, ¬ c.Matches req) (s : σ) :
    DispatchesAsMap lib calls req s ↔ ValidUtf8 req.target := by
  have hnone : ∀ i c, ¬ IsLast (·.Matches req) calls i c := fun i c hlast =>
    h c hlast.mem hlast.holds
  rw [← notFound_iff lib (not_matches_traced h) (s, [])]
  constructor
  · intro hmap
    exact hmap.notFound.mp h
  · intro hres
    exact ⟨fun i c hlast => absurd hlast (hnone i c), fun i c hlast => absurd hlast (hnone i c),
      iff_of_true h hres⟩

/-- **When the route table is a map on pairs of a method and a path.** For every sequence of
registrations, every request and every state: `dispatch` calls exactly the handler registered last
for the method and the target, and answers by a 404 without calling one exactly where there is none,
if there is one or the target is text. -/
theorem dispatch_is_map_iff (lib : Lib) (calls : List (Registration σ)) (req : Request) (s : σ) :
    DispatchesAsMap lib calls req s ↔ (∃ c ∈ calls, c.Matches req) ∨ ValidUtf8 req.target := by
  by_cases hmatch : ∃ c ∈ calls, c.Matches req
  · exact iff_of_true (dispatchesAsMap_of_matches hmatch s) (.inl hmatch)
  · rw [or_iff_right hmatch]
    exact dispatchesAsMap_iff_of_none (fun c hc hc' => hmatch ⟨c, hc, hc'⟩) s

end Router

namespace Gateway

/-- The calls of `add_route` in `main`. -/
def registrations (gw : Gateway) : List (Registration World) :=
  [⟨.get, utf8 "/health", gw.handleHealth⟩, ⟨.post, utf8 "/api/chat", gw.handleChat⟩,
    ⟨.post, utf8 "/admin/api-keys", gw.handleCreateKey⟩,
    ⟨.get, utf8 "/admin/api-keys", gw.handleListKeys⟩,
    ⟨.delete, utf8 "/admin/api-keys", gw.handleDisableKey⟩]

/-- The server's router is the table of the server's registrations. -/
theorem router_eq_register (gw : Gateway) : gw.router = Router.register gw.registrations := rfl

/-- A target with a byte that is not text has no route in `main`, and no answer. -/
theorem not_dispatchesAsMap_not_utf8 :
    ¬ Router.DispatchesAsMap (Lib.ofTable []) (small [] []).registrations
      { method := .get, target := [47, 255], body := [] } World.small := by
  have hroutes : ∀ r ∈ (small [] []).registrations.map Registration.route,
      r ≠ (.get, [47, 255]) := by decide +kernel
  have hnone : ∀ c ∈ (small [] []).registrations,
      ¬ c.Matches { method := .get, target := [47, 255], body := [] } :=
    fun c hc => hroutes c.route (List.mem_map_of_mem hc)
  rw [Router.dispatchesAsMap_iff_of_none hnone]
  decide +kernel

end Gateway

end AiSwitch
