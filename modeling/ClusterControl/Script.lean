import ClusterControl.Failure
import ClusterControl.Request

/-!
The cluster as its callers see it: a queue of responses for each endpoint. The last response of a
queue is given again and again. An endpoint without a queue answers as an empty cluster does.
-/

namespace ClusterControl

/-- The clock advances by `cost` before the outcome is known. -/
structure Response (τ : Type) where
  outcome : Except (Failure τ) Value
  cost : τ

abbrev Script (τ : Type) := List (Endpoint × List (Response τ))

namespace Script

variable {τ : Type}

/-- Replaces the queue of an endpoint. -/
def put (s : Script τ) (e : Endpoint) (queue : List (Response τ)) : Script τ :=
  match s with
  | [] => [(e, queue)]
  | (f, old) :: rest => if f = e then (e, queue) :: rest else (f, old) :: put rest e queue

theorem lookup_put (s : Script τ) (e f : Endpoint) (queue : List (Response τ)) :
    (s.put e queue).lookup f = if f = e then some queue else s.lookup f := by
  have skip {g h : Endpoint} (hne : g ≠ h) : (g == h) = false := beq_eq_false_iff_ne.2 hne
  induction s with
  | nil =>
    by_cases h : f = e
    · simp [put, h]
    · simp [put, List.lookup_cons, h, skip h]
  | cons p rest ih =>
    obtain ⟨g, old⟩ := p
    by_cases hg : g = e
    · subst hg
      by_cases h : f = g
      · simp [put, h]
      · simp [put, List.lookup_cons, h, skip h]
    · by_cases h : f = g
      · subst h
        simp [put, hg]
      · simp [put, List.lookup_cons, hg, skip h, ih]

def queue (s : Script τ) (e : Endpoint) : List (Response τ) := (s.lookup e).getD []

/-- What an endpoint without a queue answers. -/
def unscripted (r : Request) : Except (Failure τ) Value :=
  if r.endpoint.does "read" || r.endpoint.method == "get_namespaced_custom_object" then
    .error (.rejected ⟨.int 404, "Not Found", .null⟩)
  else if r.endpoint.does "list" then .ok (.obj [("items", .list [])])
  else if r.endpoint.does "create" then .ok (r.arg "body")
  else if r.endpoint.method == "get_code" then .ok (.obj [("git_version", "v1.30.0")])
  else .ok .null

/-- The response to a request, and the script that is left. -/
def answer [Zero τ] (s : Script τ) (r : Request) : Response τ × Script τ :=
  match s.queue r.endpoint with
  | [] => (⟨unscripted r, 0⟩, s)
  | [last] => (last, s)
  | first :: rest => (first, s.put r.endpoint rest)

end Script

end ClusterControl
