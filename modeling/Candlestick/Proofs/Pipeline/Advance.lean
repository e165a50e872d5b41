import Candlestick.Proofs.Pipeline.Course

/-!
# Steps of a delivery

What `step?` does to a task at each place that a delivery of a deal comes to, with the parts
that it shares with others before and after. Courses are laid out step by step with these
(`Course.led`).
-/

namespace Candlestick

/-- A step of a task to another place, with what it does to the shared parts. -/
structure Led (p q : Pipeline) (i : Nat) (next : Task) (store : SharedStore) (window : Window)
    (ingesters : Array Ingester) : Prop where
  stepped : Pipeline.step? i p = some q
  tasks : q.tasks = p.tasks.setIfInBounds i next
  now : q.now = p.now
  store : q.store = store
  window : q.window = window
  ingesters : q.ingesters = ingesters

section
variable {regime : Regime} {start p q : Pipeline} {turn : Option Nat} {notes : List Note}
  {i path : Nat} {deal : Deal} {t next : Task} {visitor : Visitor} {store : SharedStore}
  {window : Window} {ingesters : Array Ingester}

namespace Pipeline

theorem led_calling {delivery : Delivery}
    (here : p.tasks[i]? = some (.calling (.deliver path delivery))) :
    ∃ q, Led p q i (.delivering path delivery) p.store p.window
      (p.ingesters.modify path fun g => { g with lock := g.lock.request i }) := by
  have stepped : step? i p = some (p.begin i (.deliver path delivery)) := by
    simp only [step?, here]
  exact ⟨_, stepped, rfl, rfl, rfl, rfl, rfl⟩

theorem step?_claiming {g : Ingester} (here : p.tasks[i]? = some (.delivering path (.deal deal)))
    (found : p.ingesters[path]? = some g) (held : g.lock.heldBy i = true)
    (claimed : p.window.claim? deal.id = some window) :
    step? i p = some ({ p with window := window }.visit i (.ingester path deal) (.deal deal)) := by
  simp only [step?, here, found, held, if_true, handle, Delivery.examine, claimed]

theorem led_claiming {g : Ingester} (here : p.tasks[i]? = some (.delivering path (.deal deal)))
    (found : p.ingesters[path]? = some g) (held : g.lock.heldBy i = true)
    (claimed : p.window.claim? deal.id = some window) :
    ∃ q, Led p q i (.visiting (.ingester path deal) (.waiting (.deal deal))) (p.store.enter i)
      window p.ingesters :=
  ⟨_, step?_claiming here found held claimed, rfl, rfl, rfl, rfl, rfl⟩

theorem step?_duplicate {g : Ingester} (here : p.tasks[i]? = some (.delivering path (.deal deal)))
    (found : p.ingesters[path]? = some g) (held : g.lock.heldBy i = true)
    (known : p.window.claim? deal.id = none) :
    step? i p = some (p.conclude i path (.ok .duplicate)) := by
  simp only [step?, here, found, held, if_true, handle, Delivery.examine, known]

theorem led_duplicate {g : Ingester} (here : p.tasks[i]? = some (.delivering path (.deal deal)))
    (found : p.ingesters[path]? = some g) (held : g.lock.heldBy i = true)
    (known : p.window.claim? deal.id = none) :
    ∃ q metrics, Led p q i (.answered (.ingested (.ok .duplicate)))
      { p.store with metrics := metrics } p.window
      (p.ingesters.modify path fun g => ⟨g.tally.add (.ok .duplicate), g.lock.release⟩) :=
  ⟨_, _, step?_duplicate here found held known, rfl, rfl, rfl, rfl, rfl⟩

theorem led_folding {change : Change Reply}
    (here : p.tasks[i]? = some (.visiting visitor (.waiting (.deal deal))))
    (held : p.store.lock.heldBy i = true)
    (planned : (Request.deal deal).plan p.store.config p.now p.store.table = .ok change) :
    ∃ q, Led p q i (.visiting visitor (.sending change.events change.events.length change.result))
      (p.store.commit change).1 p.window p.ingesters := by
  have stepped : step? i p = some ((p.withStore (p.store.commit change).1).put i
      (.visiting visitor (p.store.commit change).2)) := by
    simp only [step?, here, stepVisit?, SharedStore.step?, held, if_true, SharedStore.act, planned]
  exact ⟨_, stepped, rfl, rfl, rfl, rfl, rfl⟩

theorem led_failing {e : StoreError}
    (here : p.tasks[i]? = some (.visiting visitor (.waiting (.deal deal))))
    (held : p.store.lock.heldBy i = true)
    (failed : (Request.deal deal).plan p.store.config p.now p.store.table = .error e) :
    ∃ q, Led p q i (.visiting visitor (.leaving (.error e))) p.store p.window p.ingesters := by
  have stepped : step? i p = some ((p.withStore p.store).put i
      (.visiting visitor (.leaving (.error e)))) := by
    simp only [step?, here, stepVisit?, SharedStore.step?, held, if_true,
      SharedStore.act_error failed]
  exact ⟨_, stepped, rfl, rfl, rfl, rfl, rfl⟩

theorem led_sent {count : Nat} {reply : Reply}
    (here : p.tasks[i]? = some (.visiting visitor (.sending [] count reply))) :
    ∃ q, Led p q i (.visiting visitor (.leaving (.ok reply))) (p.store.count .eventsEmitted count)
      p.window p.ingesters := by
  have stepped : step? i p = some ((p.withStore (p.store.count .eventsEmitted count)).put i
      (.visiting visitor (.leaving (.ok reply)))) := by
    simp only [step?, here, stepVisit?, SharedStore.step?]
  exact ⟨_, stepped, rfl, rfl, rfl, rfl, rfl⟩

theorem led_breaking {event : Event} {rest : List Event} {count : Nat} {reply : Reply}
    (here : p.tasks[i]? = some (.visiting visitor (.sending (event :: rest) count reply)))
    (closed : (p.store.events.hasSender && p.store.events.hasReceiver) = false) :
    ∃ q, Led p q i (.visiting visitor (.leaving (.error .channelClosed))) p.store p.window
      p.ingesters := by
  have stepped : step? i p = some ((p.withStore p.store).put i
      (.visiting visitor (.leaving (.error .channelClosed)))) := by
    simp [step?, here, stepVisit?, SharedStore.step?, SharedStore.publish?, Channel.send, closed]
  exact ⟨_, stepped, rfl, rfl, rfl, rfl, rfl⟩

theorem led_returning {result : Except StoreError Reply}
    (here : p.tasks[i]? = some (.visiting (.ingester path deal) (.leaving result))) :
    ∃ q, Led p q i (.concluding path deal result)
      { p.store with lock := p.store.lock.release } p.window p.ingesters := by
  have stepped : step? i p = some ((p.withStore { p.store with
      lock := p.store.lock.release }).put i (.concluding path deal result)) := by
    simp only [step?, here, stepVisit?, SharedStore.step?, leave]
  exact ⟨_, stepped, rfl, rfl, rfl, rfl, rfl⟩

theorem led_concluding {e : StoreError}
    (here : p.tasks[i]? = some (.concluding path deal (.error e))) :
    ∃ q metrics, Led p q i (.answered (.ingested (.error (.store e))))
      { p.store with metrics := metrics } (p.window.release deal.id)
      (p.ingesters.modify path fun g => ⟨g.tally.add (.error (.store e)), g.lock.release⟩) := by
  have stepped : step? i p = some (p.settleClaim i path deal (.error e)) := by
    simp only [step?, here]
  exact ⟨_, _, stepped, rfl, rfl, rfl, rfl, rfl⟩

theorem led_accepting {reply : Reply}
    (here : p.tasks[i]? = some (.concluding path deal (.ok reply))) :
    ∃ q metrics, Led p q i (.answered (.ingested (deliveryResult (.ok reply))))
      { p.store with metrics := metrics } p.window
      (p.ingesters.modify path fun g => ⟨g.tally.add (deliveryResult (.ok reply)), g.lock.release⟩) := by
  have stepped : step? i p = some (p.settleClaim i path deal (.ok reply)) := by
    simp only [step?, here]
  exact ⟨_, _, stepped, rfl, rfl, rfl, rfl, rfl⟩

end Pipeline

theorem Led.there (led : Led p q i next store window ingesters) (inside : i < p.tasks.size) :
    q.tasks[i]? = some next := by
  simp [led.tasks, inside]

theorem Course.led (course : Course regime start p turn notes)
    (mine : turn = none ∨ turn = some i) (allowed : regime.moves i p)
    (here : p.tasks[i]? = some t) (led : Led p q i next store window ingesters) :
    Course regime start q (some i) (notes ++ (Note.of? p.now i t next).toList) := by
  have there := led.there (Array.getElem?_eq_some_iff.mp here).1
  have noted : Note.between p q i = (Note.of? p.now i t next).toList := by
    simp only [Note.between, here, there]
  exact noted ▸ course.step mine allowed led.stepped

end

end Candlestick
