import Candlestick.Store.History

/-!
# Calls of a store

What a user asks for: a request, or a deal as the feed reports it. A call that is not fit
for the store is refused before the store is entered, so a run of calls comes to the run of
those that are admitted (`afterCalls_eq`, `eventsOfCalls_eq`).
-/

namespace Candlestick

inductive StoreCall where
  | request (request : Request)
  | record (record : DealRecord)
  deriving DecidableEq

def StoreCall.toRequest : StoreCall → Except StoreError Request
  | request r =>
    match r.check with
    | .ok () => .ok r
    | .error e => .error e
  | record r =>
    match Deal.ofRecord r with
    | .ok deal => .ok (.deal deal)
    | .error cause => .error (.invalidDeal cause)

theorem StoreCall.toRequest_eq_ok {call : StoreCall} {request : Request}
    (h : call.toRequest = .ok request) :
    (call = .request request ∧ request.check = .ok ()) ∨ ∃ deal, request = .deal deal := by
  unfold toRequest at h
  split at h
  · split at h
    · next checked => cases h; exact .inl ⟨rfl, checked⟩
    · cases h
  · split at h
    · next deal _ => cases h; exact .inr ⟨deal, rfl⟩
    · cases h

theorem StoreCall.check_of_toRequest {call : StoreCall} {request : Request}
    (h : call.toRequest = .ok request) : request.check = .ok () := by
  rcases toRequest_eq_ok h with ⟨-, checked⟩ | ⟨deal, rfl⟩
  · exact checked
  · rfl

structure DatedCall where
  now : Instant
  call : StoreCall
  deriving DecidableEq

namespace DatedCall

def admitted? (d : DatedCall) : Option DatedRequest :=
  match d.call.toRequest with
  | .ok request => some ⟨d.now, request⟩
  | .error _ => none

def serve (config : StoreConfig) (table : Table) (d : DatedCall) : Served :=
  match d.call.toRequest with
  | .ok request => (⟨d.now, request⟩ : DatedRequest).serve config table
  | .error e => ⟨table, [], .error e⟩

variable {config : StoreConfig} {table : Table} {d : DatedCall}

theorem admitted?_eq_some {request : DatedRequest} (h : d.admitted? = some request) :
    d.call.toRequest = .ok request.request ∧ request.now = d.now := by
  unfold admitted? at h
  split at h
  · next admitted => cases h; exact ⟨admitted, rfl⟩
  · cases h

theorem serve_of_toRequest {request : Request} (h : d.call.toRequest = .ok request) :
    d.serve config table = (⟨d.now, request⟩ : DatedRequest).serve config table := by
  simp [serve, h]

theorem serve_of_refused {e : StoreError} (h : d.call.toRequest = .error e) :
    d.serve config table = ⟨table, [], .error e⟩ := by
  simp [serve, h]

end DatedCall

namespace Table

def afterCalls (config : StoreConfig) (t : Table) (calls : List DatedCall) : Table :=
  calls.foldl (fun t d => (d.serve config t).table) t

def eventsOfCalls (config : StoreConfig) : Table → List DatedCall → List Event
  | _, [] => []
  | t, d :: rest => (d.serve config t).events ++ eventsOfCalls config (d.serve config t).table rest

variable (config : StoreConfig) (t : Table)

theorem afterCalls_eq (calls : List DatedCall) :
    t.afterCalls config calls = t.after config (calls.filterMap DatedCall.admitted?) := by
  induction calls generalizing t with
  | nil => rfl
  | cons d rest ih =>
    rw [afterCalls, List.foldl_cons]
    refine (ih _).trans ?_
    cases admitted : d.call.toRequest with
    | ok request =>
      rw [DatedCall.serve_of_toRequest admitted]
      simp [DatedCall.admitted?, admitted, after]
    | error e =>
      rw [DatedCall.serve_of_refused admitted]
      simp [DatedCall.admitted?, admitted]

theorem eventsOfCalls_eq (calls : List DatedCall) :
    t.eventsOfCalls config calls = t.eventsOf config (calls.filterMap DatedCall.admitted?) := by
  induction calls generalizing t with
  | nil => rfl
  | cons d rest ih =>
    rw [eventsOfCalls, ih]
    cases admitted : d.call.toRequest with
    | ok request =>
      rw [DatedCall.serve_of_toRequest admitted]
      simp [DatedCall.admitted?, admitted, eventsOf, serveAll]
    | error e =>
      rw [DatedCall.serve_of_refused admitted]
      simp [DatedCall.admitted?, admitted]

end Table

end Candlestick
