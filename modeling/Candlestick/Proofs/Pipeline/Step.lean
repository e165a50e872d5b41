import Candlestick.Pipeline.Basic

/-!
# What a task does with its step

`TaskStep` reads `step?` as a rule for each place that a task can be in, with what has to be
so for the task to move. Whatever is said of all steps is said of these, one by one.
-/

namespace Candlestick

open Pipeline

inductive TaskStep (p : Pipeline) (i : Nat) : Task → Pipeline → Prop
  | begins (call : Call) : TaskStep p i (.calling call) (p.begin i call)
  | handles {path : Nat} {delivery : Delivery} {g : Ingester} :
      p.ingesters[path]? = some g → g.lock.heldBy i = true →
      TaskStep p i (.delivering path delivery) (p.handle i path delivery)
  | visits {visitor : Visitor} {visit : Visit} {q : Pipeline} :
      p.stepVisit? i visitor visit = some q → TaskStep p i (.visiting visitor visit) q
  | settles (path : Nat) (deal : Deal) (result : Except StoreError Reply) :
      TaskStep p i (.concluding path deal result) (p.settleClaim i path deal result)
  | seeded : TaskStep p i (.seeding []) (p.put i (.seeded (.ok ())))
  | seeds (pair : Pair) (rest : List Pair) :
      TaskStep p i (.seeding (pair :: rest)) (p.visit i (.seeder rest) (.seed pair none))
  | rests :
      p.store.cancelled = false →
      TaskStep p i .refreshing (p.put i (.resting (p.millis + millisOf (delayToMinute p.now))))
  | refreshes {deadline : Nat} :
      p.store.cancelled = false → deadline ≤ p.millis →
      TaskStep p i (.resting deadline) (p.visit i .refresher .refresh)
  /-- A refresher that finds the store told to stop, before it sets its timer. -/
  | retires :
      p.store.cancelled = true →
      TaskStep p i .refreshing ((p.withStore (p.store.enter i)).put i .closing)
  /-- The same while it waits for the timer. -/
  | wakes {deadline : Nat} :
      p.store.cancelled = true →
      TaskStep p i (.resting deadline) ((p.withStore (p.store.enter i)).put i .closing)
  | closes :
      p.store.lock.heldBy i = true →
      TaskStep p i .closing ((p.withStore p.store.close).put i .stopped)
  | gathers {b : Batching Event} :
      p.joined.step? p.batch p.millis p.store.cancelled = some b →
      TaskStep p i .batching (p.withJoined b)
  | takes {batch : List Event} {batches : Channel (List Event)} :
      p.batches.receive = .item batch batches →
      TaskStep p i .listening
        (({ p with batches := batches }.withMetrics fun m => m.add .batchesFlushed 1).put i
          (.publishing (Message.ofEvents batch) p.millis (p.millis + p.broadcaster.delayMillis)))
  | ends : p.batches.receive = .ended → TaskStep p i .listening (p.put i .stopped)
  | publishes {messages : List Message} {began deadline : Nat} :
      deadline ≤ p.millis →
      TaskStep p i (.publishing messages began deadline) (p.publish i messages began)

namespace Pipeline

variable {p q : Pipeline} {i : Nat} {t : Task}

theorem taskStep_of_task (here : p.tasks[i]? = some t) (h : step? i p = some q) :
    TaskStep p i t q := by
  simp only [step?, here] at h
  cases t with
  | calling call =>
    cases h
    exact .begins call
  | delivering path delivery =>
    dsimp only at h
    split at h
    · next found =>
      split at h
      · next held =>
        cases h
        exact .handles found held
      · cases h
    · cases h
  | visiting visitor visit => exact .visits h
  | concluding path deal result =>
    cases h
    exact .settles path deal result
  | seeding pairs =>
    cases pairs with
    | nil =>
      cases h
      exact .seeded
    | cons pair rest =>
      cases h
      exact .seeds pair rest
  | refreshing =>
    dsimp only at h
    split at h
    · next cancelled =>
      cases h
      exact .retires cancelled
    · next going =>
      cases h
      exact .rests (Bool.eq_false_iff.mpr going)
  | resting deadline =>
    dsimp only at h
    split at h
    · next cancelled =>
      cases h
      exact .wakes cancelled
    · next going =>
      split at h
      · next due =>
        cases h
        exact .refreshes (Bool.eq_false_iff.mpr going) due
      · cases h
  | closing =>
    dsimp only at h
    split at h
    · next held =>
      cases h
      exact .closes held
    · cases h
  | batching =>
    obtain ⟨b, batched, rfl⟩ := Option.map_eq_some_iff.mp h
    exact .gathers batched
  | listening =>
    dsimp only [listen?] at h
    split at h
    · next received =>
      cases h
      exact .takes received
    · next ended =>
      cases h
      exact .ends ended
    · cases h
  | publishing messages began deadline =>
    dsimp only at h
    split at h
    · next due =>
      cases h
      exact .publishes due
    · cases h
  | answered | seeded | stopped => cases h

theorem taskStep_of_step? (h : step? i p = some q) :
    ∃ t, p.tasks[i]? = some t ∧ TaskStep p i t q := by
  cases here : p.tasks[i]? with
  | none =>
    simp only [step?, here] at h
    cases h
  | some t => exact ⟨t, rfl, taskStep_of_task here h⟩

end Pipeline

end Candlestick
