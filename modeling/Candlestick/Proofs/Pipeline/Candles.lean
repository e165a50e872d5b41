import Candlestick.Proofs.Calendar.Nonempty
import Candlestick.Proofs.Calendar.Partition
import Candlestick.Proofs.Pipeline.Serial
import Candlestick.Proofs.Store.Ordered
import Candlestick.Proofs.Store.PairStep

/-!
# Candles of a running store

A property that a store keeps request by request (`KeptByStore`) holds of every candle in
the table and of every one that is published, whatever the tasks around the store do
(`Lifetime.holds`). The invariant (`Holds`) also follows what is on its way: deals that
tasks still bring, and events still to be sent.
-/

namespace Candlestick

/-- What a task brings to the store or has still to tell of it. -/
def Task.Brings (deals : Deal → Prop) (P : Candle → Prop) : Task → Prop
  | .calling (.store request) => request.Brings deals P
  | .calling (.record record) => ∀ d, Deal.ofRecord record = .ok d → deals d
  | .calling (.deliver _ delivery) => ∀ d, delivery.examine = .admitted d → deals d
  | .delivering _ delivery => ∀ d, delivery.examine = .admitted d → deals d
  | .visiting _ (.waiting request) => request.check = .ok () ∧ request.Brings deals P
  | .visiting _ (.sending events _ _) => Event.All P events
  | _ => True

structure Holds (deals : Deal → Prop) (P : Candle → Prop) (config : StoreConfig)
    (s : SharedStore) (tasks : Array Task) : Prop where
  config : s.config = config
  tidy : s.table.Tidy
  stored : s.table.All P
  queued : Event.All P s.events.items
  tasks : ∀ (i : Nat) t, tasks[i]? = some t → t.Brings deals P

section
variable {deals : Deal → Prop} {P : Candle → Prop} {config : StoreConfig}
  {s store : SharedStore} {tasks : Array Task} {i : Nat} {p q : Pipeline} {t : Task}

theorem Holds.tasks_set (h : Holds deals P config s tasks) (i : Nat) {next : Task}
    (brings : next.Brings deals P) (j : Nat) (t : Task)
    (there : (tasks.setIfInBounds i next)[j]? = some t) : t.Brings deals P := by
  rw [Array.getElem?_setIfInBounds] at there
  split at there
  · split at there
    · cases there
      exact brings
    · cases there
  · exact h.tasks j t there

theorem Holds.quiet (h : Holds deals P config s tasks) (i : Nat) {next : Task}
    (kept : store.config = s.config) (table : store.table = s.table)
    (items : ∀ e ∈ store.events.items, e ∈ s.events.items) (brings : next.Brings deals P) :
    Holds deals P config store (tasks.setIfInBounds i next) :=
  ⟨kept.trans h.config, table ▸ h.tidy, table ▸ h.stored,
    fun e he => h.queued e (items e he), h.tasks_set i brings⟩

theorem Holds.aside (h : Holds deals P config s tasks) (i : Nat) {next : Task} {lock : Lock}
    {metrics : Metrics} (brings : next.Brings deals P) :
    Holds deals P config { s with lock := lock, metrics := metrics }
      (tasks.setIfInBounds i next) :=
  h.quiet i rfl rfl (fun _ he => he) brings

theorem Holds.acts (kept : KeptByStore config.calendar deals P)
    (h : Holds deals P config s tasks) (i : Nat) {now : Instant} {request : Request}
    {change : Change Reply} (visitor : Visitor) (checked : request.check = .ok ())
    (brings : request.Brings deals P) (planned : request.plan s.config now s.table = .ok change) :
    Holds deals P config (s.commit change).1
      (tasks.setIfInBounds i (.visiting visitor (s.commit change).2)) := by
  rw [h.config] at planned
  have served := DatedRequest.serve_of_plan checked planned
  have tidy : ((⟨now, request⟩ : DatedRequest).serve config s.table).table.Tidy :=
    DatedRequest.serve_tidy h.tidy
  obtain ⟨stored, told⟩ := kept.serve (d := ⟨now, request⟩) h.stored brings
  rw [served] at tidy stored told
  exact ⟨h.config, tidy, stored, h.queued, h.tasks_set i told⟩

theorem Holds.sends (h : Holds deals P config s tasks) (i : Nat) {event : Event}
    {rest : List Event} {count : Nat} {reply : Reply} {visitor : Visitor}
    {events : Channel Event} (told : Event.All P (event :: rest))
    (sent : s.events.send event = .sent events) :
    Holds deals P config { s with events := events }
      (tasks.setIfInBounds i (.visiting visitor (.sending rest count reply))) := by
  refine ⟨h.config, h.tidy, h.stored, ?_,
    h.tasks_set i fun e he => told e (List.mem_cons_of_mem _ he)⟩
  rw [Channel.items_of_sent sent]
  exact h.queued.append (Event.all_singleton (told event (List.mem_cons_self ..)))

end

-- ---------------------------------------------------------------------------
-- One step
-- ---------------------------------------------------------------------------

theorem Batching.items_of_step? {α : Type} {batch : BatchConfig} {millis : Nat}
    {cancelled : Bool} {b next : Batching α} (h : b.step? batch millis cancelled = some next) :
    ∀ e ∈ next.input.items, e ∈ b.input.items := by
  have stopped : ∀ other : Batching α, ∀ e ∈ other.stop.input.items, e ∈ b.input.items := by
    intro other e he
    cases he
  have taken : ∀ {item : α} {input : Channel α}, b.input.receive = .item item input →
      ∀ e ∈ input.items, e ∈ b.input.items := by
    intro item input received e he
    rw [Channel.items_of_received received]
    exact List.mem_cons_of_mem _ he
  unfold Batching.step? at h
  repeat' split at h
  all_goals cases h
  all_goals first
    | exact stopped _
    | exact taken ‹_›
    | exact fun e he => he

namespace Holds

section
variable {deals : Deal → Prop} {P : Candle → Prop} {config : StoreConfig} {i : Nat}
  {p q : Pipeline}

theorem visit (h : Holds deals P config p.store p.tasks) (i : Nat) (visitor : Visitor)
    {request : Request} (checked : request.check = .ok ()) (brings : request.Brings deals P) :
    Holds deals P config (p.visit i visitor request).store (p.visit i visitor request).tasks :=
  h.aside i ⟨checked, brings⟩

theorem conclude (h : Holds deals P config p.store p.tasks) (i path : Nat)
    (result : Except IngestError Ingested) :
    Holds deals P config (p.conclude i path result).store (p.conclude i path result).tasks :=
  h.aside i trivial

theorem begin (h : Holds deals P config p.store p.tasks) {call : Call}
    (brings : (Task.calling call).Brings deals P) :
    Holds deals P config (p.begin i call).store (p.begin i call).tasks := by
  unfold Pipeline.begin
  cases call with
  | store request =>
    dsimp only
    split
    · next checked => exact h.visit i .caller checked brings
    · exact h.aside i trivial
  | record record =>
    dsimp only
    split
    · next deal valid => exact h.visit i .caller rfl (brings deal valid)
    · exact h.aside i trivial
  | deliver path delivery => exact h.aside i brings

theorem handle (h : Holds deals P config p.store p.tasks) {path : Nat} {delivery : Delivery}
    (brings : (Task.delivering path delivery).Brings deals P) :
    Holds deals P config (p.handle i path delivery).store (p.handle i path delivery).tasks := by
  unfold Pipeline.handle
  split
  · exact h.conclude i path _
  · exact h.conclude i path _
  · next deal admitted =>
    split
    · exact h.conclude i path _
    · next window _ =>
      have opened : Holds deals P config { p with window := window }.store
          { p with window := window }.tasks := h
      exact opened.visit i (.ingester path deal) rfl (brings deal admitted)

theorem settleClaim (h : Holds deals P config p.store p.tasks) (i path : Nat) (deal : Deal)
    (result : Except StoreError Reply) :
    Holds deals P config (p.settleClaim i path deal result).store
      (p.settleClaim i path deal result).tasks := by
  cases result with
  | ok reply => exact h.conclude i path _
  | error e =>
    have released : Holds deals P config { p with window := p.window.release deal.id }.store
        { p with window := p.window.release deal.id }.tasks := h
    exact released.conclude i path _

theorem publish (h : Holds deals P config p.store p.tasks) (i : Nat) (messages : List Message)
    (began : Nat) :
    Holds deals P config (p.publish i messages began).store (p.publish i messages began).tasks := by
  unfold Pipeline.publish
  dsimp only
  repeat' split
  all_goals exact h.aside i trivial

theorem leave (h : Holds deals P config p.store p.tasks) (i : Nat)
    (result : Except StoreError Reply) (visitor : Visitor) :
    Holds deals P config (p.leave i result visitor).store (p.leave i result visitor).tasks := by
  unfold Pipeline.leave
  repeat' split
  all_goals exact h.aside i trivial

theorem stepVisit? (kept : KeptByStore config.calendar deals P)
    (h : Holds deals P config p.store p.tasks) {visitor : Visitor} {visit : Visit}
    (brings : (Task.visiting visitor visit).Brings deals P)
    (stepped : p.stepVisit? i visitor visit = some q) :
    Holds deals P config q.store q.tasks := by
  obtain ⟨store, next, step, rfl⟩ | ⟨store, result, step, rfl⟩ :=
    Pipeline.stepVisit?_cases stepped
  · cases step with
    | acts holder planned => exact h.acts kept i visitor brings.1 brings.2 planned
    | fails holder planned => exact h.aside i trivial
    | sends sent => exact h.sends i brings sent
    | breaks emission | sent => exact h.aside i trivial
  · cases step
    have free : Holds deals P config { p.store with lock := p.store.lock.release } p.tasks :=
      ⟨h.config, h.tidy, h.stored, h.queued, h.tasks⟩
    exact leave (p := p.withStore { p.store with lock := p.store.lock.release }) free i result
      visitor

theorem step (kept : KeptByStore config.calendar deals P)
    (h : Holds deals P config p.store p.tasks) (stepped : Pipeline.step? i p = some q) :
    Holds deals P config q.store q.tasks := by
  obtain ⟨t, here, step⟩ := Pipeline.taskStep_of_step? stepped
  have brings := h.tasks i t here
  cases step with
  | begins => exact h.begin brings
  | handles => exact h.handle brings
  | visits visited => exact h.stepVisit? kept brings visited
  | settles path deal result => exact h.settleClaim i path deal result
  | seeds pair rest => exact h.visit i (.seeder rest) rfl trivial
  | refreshes => exact h.visit i .refresher rfl trivial
  | closes => exact h.quiet i rfl rfl (fun _ he => he) trivial
  | gathers batched =>
    have items := Batching.items_of_step? batched
    exact ⟨h.config, h.tidy, h.stored, fun e he => h.queued e (items e he), h.tasks⟩
  | publishes => exact h.publish i _ _
  | seeded | rests | retires | wakes | takes | ends => exact h.aside i trivial

end

end Holds

-- ---------------------------------------------------------------------------
-- The lifetime of a store
-- ---------------------------------------------------------------------------

structure Around (joins : Task → Prop) (p q : Pipeline) : Prop where
  config : q.store.config = p.store.config
  table : q.store.table = p.store.table
  events : ∀ e ∈ q.store.events.items, e ∈ p.store.events.items
  tasks : ∃ more : Array Task, q.tasks = p.tasks ++ more ∧ ∀ t ∈ more, joins t

/-- From a start to a state by steps of any tasks in any order, and whatever happens
around them. -/
inductive Lifetime (joins : Task → Prop) (start : Pipeline) : Pipeline → Prop
  | start : Lifetime joins start start
  | step {p q : Pipeline} {i : Nat} :
      Lifetime joins start p → Pipeline.step? i p = some q → Lifetime joins start q
  | around {p q : Pipeline} :
      Lifetime joins start p → Around joins p q → Lifetime joins start q

structure Pipeline.Empty (p : Pipeline) : Prop where
  table : p.store.table = {}
  events : p.store.events.items = []
  tasks : p.tasks = #[]

/-- A task that comes from outside and puts no candle of its own into the store. -/
def Task.Plain : Task → Prop
  | .calling (.store (.seed _ (some _))) => False
  | .calling _ => True
  | .seeding _ => True
  | .refreshing => True
  | .batching => True
  | .listening => True
  | _ => False

def Task.ByRecord : Task → Prop
  | .calling (.store (.deal _)) => False
  | .calling (.deliver _ (.deal _)) => False
  | _ => True

theorem Delivery.ofRecord_of_examine {delivery : Delivery} {d : Deal}
    (h : delivery.examine = .admitted d) (ne : ∀ deal, delivery ≠ .deal deal) :
    ∃ r, Deal.ofRecord r = .ok d := by
  have recorded : ∀ r, examineRecord r = .admitted d → ∃ r, Deal.ofRecord r = .ok d := by
    intro r admitted
    unfold examineRecord at admitted
    split at admitted
    · split at admitted
      · next valid =>
        cases admitted
        exact ⟨r, valid⟩
      · cases admitted
    · cases admitted
  cases delivery with
  | text line =>
    simp only [examine] at h
    split at h
    · exact recorded _ h
    · cases h
  | record r => exact recorded r h
  | deal deal => exact absurd rfl (ne deal)

section
variable {deals : Deal → Prop} {P : Candle → Prop} {joins : Task → Prop}
  {start p q : Pipeline} {t : Task}

theorem Task.Plain.brings (plain : t.Plain) : t.Brings (fun _ => True) P := by
  cases t with
  | calling call =>
    cases call with
    | store request =>
      cases request with
      | seed pair given =>
        cases given with
        | none => exact trivial
        | some c => exact absurd plain id
      | _ => exact trivial
    | record r | deliver path delivery => exact fun _ _ => trivial
  | seeding pairs | refreshing | batching | listening => exact trivial
  | _ => exact absurd plain id

theorem Task.ByRecord.brings (record : t.ByRecord) (plain : t.Plain) :
    t.Brings Deal.NonNegative P := by
  cases t with
  | calling call =>
    cases call with
    | store request =>
      cases request with
      | deal d => exact absurd record id
      | seed pair given =>
        cases given with
        | none => exact trivial
        | some c => exact absurd plain id
      | _ => exact trivial
    | record r => exact fun d valid => Deal.nonNegative_of_ofRecord valid
    | deliver path delivery =>
      intro d admitted
      cases delivery with
      | deal deal => exact absurd record id
      | _ =>
        obtain ⟨r, valid⟩ := Delivery.ofRecord_of_examine admitted fun deal same => by cases same
        exact Deal.nonNegative_of_ofRecord valid
  | seeding pairs | refreshing | batching | listening => exact trivial
  | _ => exact absurd plain id

theorem Lifetime.holds (kept : KeptByStore start.store.config.calendar deals P)
    (empty : start.Empty) (brings : ∀ t, joins t → t.Brings deals P)
    (lifetime : Lifetime joins start p) :
    Holds deals P start.store.config p.store p.tasks := by
  induction lifetime with
  | start =>
    refine ⟨rfl, empty.table ▸ Table.tidy_empty, empty.table ▸ Table.all_empty P,
      empty.events ▸ Event.all_nil P, fun i t there => ?_⟩
    simp [empty.tasks] at there
  | step _ stepped ih => exact ih.step kept stepped
  | around _ around ih =>
    obtain ⟨config, table, events, more, same, joined⟩ := around
    refine ⟨config.trans ih.config, table ▸ ih.tidy, table ▸ ih.stored,
      fun e he => ih.queued e (events e he), fun i t there => ?_⟩
    rw [same, Array.getElem?_append] at there
    split at there
    · exact ih.tasks i t there
    · exact brings t (joined t (Array.mem_of_getElem? there))

/-- In UTC and in zones of a fixed offset, a store into which nobody puts candles keeps
every candle under its own pair, and all that it keeps or publishes are candles of
whole buckets, with the prices in order. If moreover all deals come from records,
nothing in them is negative. -/
theorem candles_ordered (steady : start.store.config.calendar.zone ≠ .host)
    (empty : start.Empty) (plain : ∀ t, joins t → t.Plain) (lifetime : Lifetime joins start p) :
    (∀ e ∈ p.store.table.entries, e.2.pair = e.1) ∧
    (∀ c, (c ∈ p.store.table.entries.map Prod.snd ∨
        c ∈ p.store.events.items.map Event.candle) →
      (c.openTime = start.store.config.calendar.bucketStart c.resolution c.openTime ∧
        c.closeTime = start.store.config.calendar.bucketEnd c.resolution c.openTime ∧
        c.openTime.nanos < c.closeTime.nanos ∧ c.Ranged) ∧
      ((∀ t, joins t → t.ByRecord) → c.NonNegative)) := by
  have ordered := lifetime.holds (ranged_keptByStore _) empty fun t joined =>
    (plain t joined).brings
  refine ⟨ordered.tidy.keyed, fun c held => ⟨?_, fun records => ?_⟩⟩
  · obtain ⟨⟨⟨t, opened⟩, closed⟩, ranged⟩ : c.Aligned start.store.config.calendar ∧ c.Ranged := by
      rcases held with held | held
      · obtain ⟨e, he, rfl⟩ := List.mem_map.mp held
        exact ordered.stored e he
      · obtain ⟨e, he, rfl⟩ := List.mem_map.mp held
        exact ordered.queued e he
    have lasts := Calendar.bucketStart_lt_bucketEnd (Calendar.monthsHold_of_steady steady)
      c.resolution t
    rw [← opened] at lasts
    refine ⟨?_, closed, closed ▸ lasts, ranged⟩
    rw [opened, Calendar.bucketStart_bucketStart steady]
  · have signed := lifetime.holds (nonNegative_keptByStore _) empty fun t joined =>
      (records t joined).brings (plain t joined)
    rcases held with held | held
    · obtain ⟨e, he, rfl⟩ := List.mem_map.mp held
      exact signed.stored e he
    · obtain ⟨e, he, rfl⟩ := List.mem_map.mp held
      exact signed.queued e he

end

-- ---------------------------------------------------------------------------
-- A session as a lifetime
-- ---------------------------------------------------------------------------

theorem Session.lifetime {joins : Task → Prop} {start p : Pipeline} {j : Journal}
    (session : Session start p j) (asked : ∀ call ∈ j.asked, joins (.calling call.toCall)) :
    Lifetime joins start p := by
  induction session with
  | start => exact .start
  | calls call _ ih =>
    refine .around (ih fun call he => asked call (List.mem_append_left _ he))
      ⟨rfl, rfl, fun _ he => he, #[.calling call.toCall], Array.push_eq_append, ?_⟩
    intro t ht
    rw [List.mem_toArray, List.mem_singleton] at ht
    exact ht ▸ asked call (List.mem_append_right _ (List.mem_singleton_self _))
  | step _ stepped ih => exact (ih asked).step stepped
  | takes _ taken ih =>
    refine .around (ih asked) ⟨rfl, rfl, fun e he => ?_, #[], Array.append_empty.symm, by simp⟩
    rw [Channel.items_of_received taken]
    exact List.mem_cons_of_mem _ he
  | elapses clock millis _ ih =>
    exact .around (ih asked) ⟨rfl, rfl, fun _ he => he, #[], Array.append_empty.symm, by simp⟩

def newStore : Pipeline where
  store := { config := twoResolutions, events := .create 8 }
  window := .empty 1
  ingesters := #[]
  clock := ⟨.clamp (5 * nanosPerSecond), false⟩

def twoRecords : List Happening :=
  [.calls (.record (recordAt 5 "10" "3")), .step 0, .step 0, .step 0, .step 0, .step 0, .step 0,
    .elapses ⟨.clamp (61 * nanosPerSecond), false⟩ 0, .calls (.record (recordAt 61 "9.5" "1")),
    .step 0, .step 0, .step 1, .step 1, .step 1, .step 1, .step 1, .step 1]

theorem twoRecords_ordered : ∃ p, Lifetime (fun t => t.Plain ∧ t.ByRecord) newStore p ∧
    p.store.events.items.length = 8 ∧
      ∀ e ∈ p.store.events.items, e.candle.Ranged ∧ e.candle.NonNegative := by
  obtain ⟨p, j, played, asked, eight⟩ : ∃ p j, newStore.play? {} twoRecords = some (p, j) ∧
      j.asked = [.record (recordAt 5 "10" "3"), .record (recordAt 61 "9.5" "1")] ∧
      p.store.events.items.length = 8 := by
    have plays : (newStore.play? {} twoRecords).isSome := by decide +kernel
    obtain ⟨⟨p, j⟩, played⟩ := Option.isSome_iff_exists.mp plays
    have ends : ∀ r ∈ newStore.play? {} twoRecords,
        r.2.asked = [.record (recordAt 5 "10" "3"), .record (recordAt 61 "9.5" "1")] ∧
        r.1.store.events.items.length = 8 := by decide +kernel
    exact ⟨p, j, played, ends _ played⟩
  have lifetime : Lifetime (fun t => t.Plain ∧ t.ByRecord) newStore p := by
    refine (Session.start.play played).lifetime fun call he => ?_
    rw [asked] at he
    rcases List.mem_cons.mp he with rfl | he
    · exact ⟨trivial, trivial⟩
    · rw [List.mem_singleton] at he
      exact he ▸ ⟨trivial, trivial⟩
  obtain ⟨-, whole⟩ := candles_ordered (by decide) ⟨rfl, rfl, rfl⟩ (fun t h => h.1) lifetime
  refine ⟨p, lifetime, eight, fun e he => ?_⟩
  obtain ⟨⟨-, -, -, ranged⟩, signed⟩ := whole e.candle (.inr (List.mem_map_of_mem he))
  exact ⟨ranged, signed fun t h => h.2⟩

end Candlestick
