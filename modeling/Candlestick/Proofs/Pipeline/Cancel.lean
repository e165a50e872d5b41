import Candlestick.Proofs.Pipeline.Rest
import Candlestick.Proofs.Pipeline.Watch

/-!
# Streams cut short

Whenever a store is told to stop, what it has published is taken from the events of the same
requests without a stop, in their order (`Stopping.drawn`). It is a prefix of them as long
as the channel has no room or is closed (`Stopping.whole`): a send is tried before anybody
looks whether the store was told to stop, so an event that is taken in between lets a later
one through (`stream_resumes`).
-/

namespace Candlestick

-- ---------------------------------------------------------------------------
-- The holder of the lock and what it has still to send
-- ---------------------------------------------------------------------------

def Lock.outstanding (lock : Lock) (task : Nat → Option Task) : List Event :=
  lock.ofHolder (fun _ => Task.unsent) task

theorem Lock.outstanding_of_holder {lock : Lock} {task : Nat → Option Task} {i : Nat} {t : Task}
    (holder : lock.holder = some i) (here : task i = some t) :
    lock.outstanding task = t.unsent := Lock.ofHolder_some holder here

theorem Lock.outstanding_placed {lock : Lock} {task : Nat → Option Task} {i : Nat} {next : Task}
    (holder : lock.holder = some i) : lock.outstanding (placed task i next) = next.unsent :=
  Lock.ofHolder_placed holder

theorem Task.begun_of_unsent {t : Task} (h : t.unsent ≠ []) :
    ∃ visitor visit, t = .visiting visitor visit ∧ visit.Begun := by
  cases t with
  | visiting visitor visit =>
    cases visit with
    | sending => exact ⟨_, _, rfl, trivial⟩
    | _ => exact absurd rfl h
  | _ => exact absurd rfl h

namespace InLine

variable {lock after : Lock} {task : Nat → Option Task} {i : Nat} {t next : Task}

theorem outstanding_eq (h : InLine lock task) (here : task i = some t) (unsent : t.unsent ≠ []) :
    lock.outstanding task = t.unsent := by
  obtain ⟨visitor, visit, rfl, begun⟩ := Task.begun_of_unsent unsent
  exact Lock.ofHolder_some (h.holding i visitor visit here begun) here

theorem outstanding_eq_nil (none : ∀ k u, task k = some u → u.unsent = []) :
    lock.outstanding task = [] := by
  unfold Lock.outstanding Lock.ofHolder
  split
  · next k _ =>
    cases there : task k with
    | none => rfl
    | some u => exact none k u there
  · rfl

theorem outstanding_placed (before : InLine lock task) (behind : InLine after (placed task i next))
    (here : task i = some t) (nothing : t.unsent = []) (still : next.unsent = []) :
    after.outstanding (placed task i next) = lock.outstanding task := by
  by_cases sending : ∃ k u, task k = some u ∧ u.unsent ≠ []
  · obtain ⟨k, u, there, unsent⟩ := sending
    have other : k ≠ i := by
      rintro rfl
      rw [here] at there
      cases there
      exact unsent nothing
    rw [before.outstanding_eq there unsent,
      behind.outstanding_eq ((placed_of_ne _ _ other).trans there) unsent]
  · have none : ∀ k u, task k = some u → u.unsent = [] := by
      intro k u there
      by_contra unsent
      exact sending ⟨k, u, there, unsent⟩
    rw [outstanding_eq_nil none, outstanding_eq_nil]
    intro k u there
    rcases placed_cases there with ⟨-, rfl⟩ | ⟨-, there⟩
    · exact still
    · exact none k u there

end InLine

-- ---------------------------------------------------------------------------
-- The invariant
-- ---------------------------------------------------------------------------

/-- Nothing more gets onto a channel: it is closed, or it is full and stays full. -/
def Watch.Sealed (w : Watch) (events : Channel Event) : Prop :=
  events.hasSender = false ∨ (w.abandoned = true ∧ events.capacity ≤ events.items.length)

def Watch.published (w : Watch) (events : Channel Event) : List Event := w.received ++ events.items

/-- What an observer has written down, against the run of the same requests without a
stop. -/
structure Stopping (config : StoreConfig) (table : Table) (w : Watch) (s : SharedStore)
    (task : Nat → Option Task) : Prop where
  setup : s.config = config
  receiver : s.events.hasReceiver = true
  inLine : InLine s.lock task
  users : ∀ i t, task i = some t → t.OfUser
  candles : s.table = table.after config w.requests
  /-- Events are left out, but neither told twice nor out of order. -/
  drawn : (w.published s.events ++ s.lock.outstanding task).Sublist
    (table.eventsOf config w.requests)
  /-- Before an event is given up, all that is missing is yet to be sent. -/
  whole : w.relieved = [] →
    (w.abandoned = false ∧
      w.published s.events ++ s.lock.outstanding task = table.eventsOf config w.requests) ∨
    (w.Sealed s.events ∧ w.published s.events <+: table.eventsOf config w.requests)

section
variable {now : Instant} {i : Nat} {s : SharedStore} {t next : Task} {config : StoreConfig}
  {table : Table} {w : Watch} {task : Nat → Option Task}

theorem Task.abandons_of_not_stands (out : ¬ t.Stands) (next : Task) : t.abandons next = false := by
  cases t <;> first | rfl | exact absurd trivial out

theorem Task.logged?_of_not_stands (out : ¬ t.Stands) : t.logged? now i = none := by
  cases t <;> first | rfl | exact absurd trivial out

theorem Task.unsent_of_not_stands (out : ¬ t.Stands) : t.unsent = [] := by
  cases t <;> first | rfl | exact absurd trivial out

def Watch.after (w : Watch) (now : Instant) (i : Nat) (t next : Task) : Watch :=
  { w with
    requests := w.requests ++ (t.logged? now i).toList.map Entry.dated
    abandoned := w.abandoned || t.abandons next }

theorem Watch.published_take {event : Event} {events : Channel Event}
    (taken : s.events.receive = .item event events) :
    (w.take s.events event).published events = w.published s.events := by
  rw [Watch.published, Watch.published, Channel.items_of_received taken]
  simp [Watch.take]

theorem Watch.of_relieved_take {event : Event} {events : Channel Event}
    (quiet : (w.take events event).relieved = []) :
    w.relieved = [] ∧ (w.abandoned = true → events.hasSender = false) := by
  simp only [Watch.take] at quiet
  split at quiet
  · exact absurd quiet (List.append_ne_nil_of_right_ne_nil _ (List.cons_ne_nil _ _))
  · next calm => exact ⟨quiet, fun abandoned => by simpa [abandoned] using calm⟩

-- ---------------------------------------------------------------------------
-- What a step does to the stream
-- ---------------------------------------------------------------------------

/-- A step carries a request out, sends an event, loses what was to be sent, or does nothing
about the stream. -/
inductive StreamEffect (config : StoreConfig) (now : Instant) (i : Nat) (s : SharedStore) :
    Task → SharedStore → Task → Prop
  | carries {visitor : Visitor} {request : Request} {after : SharedStore} {next : Task} :
      s.lock.holder = some i → after.lock = s.lock → after.events = s.events →
      after.table = ((⟨now, request⟩ : DatedRequest).serve config s.table).table →
      next.unsent = ((⟨now, request⟩ : DatedRequest).serve config s.table).events →
      StreamEffect config now i s (.visiting visitor (.waiting request)) after next
  | sends {visitor : Visitor} {event : Event} {rest : List Event} {count : Nat} {reply : Reply}
      {events : Channel Event} :
      s.lock.holder = some i → s.events.send event = .sent events →
      StreamEffect config now i s (.visiting visitor (.sending (event :: rest) count reply))
        { s with events := events } (.visiting visitor (.sending rest count reply))
  | loses {t next : Task} :
      s.lock.holder = some i → t.logged? now i = none → next.unsent = [] →
      (s.events.hasSender = false ∨
        t.abandons next = true ∧ s.events.capacity ≤ s.events.items.length) →
      StreamEffect config now i s t s next
  | quiet {t next : Task} {after : SharedStore} :
      t.logged? now i = none → t.abandons next = false → t.unsent = [] → next.unsent = [] →
      after.table = s.table → (after.events = s.events ∨ after.events = s.events.dropSender) →
      StreamEffect config now i s t after next

theorem Channel.capacity_le_of_full {α : Type} {c : Channel α} {item : α}
    (full : c.send item = .full) : c.capacity ≤ c.items.length := by
  unfold send at full
  split at full
  · split at full
    · cases full
    · next more => exact Nat.le_of_not_lt more
  · cases full

theorem StreamEffect.isSealed {after : SharedStore}
    (effect : StreamEffect config now i s t after next) (isSealed : w.Sealed s.events) :
    (w.after now i t next).Sealed after.events ∧ after.events.items = s.events.items := by
  have abandoned : w.abandoned = true → (w.after now i t next).abandoned = true := by
    intro before
    simp [Watch.after, before]
  have same : (w.after now i t next).Sealed s.events :=
    isSealed.imp_right fun full => ⟨abandoned full.1, full.2⟩
  cases effect with
  | carries _ _ events => exact ⟨events.symm ▸ same, congrArg Channel.items events⟩
  | @sends _ event _ _ _ _ _ sent =>
    -- there is no room
    exfalso
    unfold Channel.send at sent
    split at sent
    · next joined =>
      split at sent
      · next room =>
        rcases isSealed with closed | ⟨-, full⟩
        · simp [closed] at joined
        · omega
      · cases sent
    · cases sent
  | loses => exact ⟨same, rfl⟩
  | quiet _ _ _ _ _ events =>
    rcases events with events | events
    · exact ⟨events.symm ▸ same, congrArg Channel.items events⟩
    · exact ⟨.inl (congrArg Channel.hasSender events), events ▸ rfl⟩

namespace Stopping

variable {after : SharedStore}

theorem effect (h : Stopping config table w s task) (here : task i = some t)
    (step : UserStep now i s t after next) : StreamEffect config now i s t after next := by
  have holder : ∀ {visitor visit}, t = .visiting visitor visit → visit.Begun →
      s.lock.holder = some i := by
    rintro visitor visit rfl begun
    exact h.inLine.holding i visitor visit here begun
  have checked : ∀ {visitor request}, t = .visiting visitor (.waiting request) →
      request.check = .ok () := by
    rintro visitor request rfl
    cases h.users i _ here with
    | waiting _ checked => exact checked
    | begun _ begun => exact absurd begun id
  cases step with
  | aside out stays =>
    exact .quiet (Task.logged?_of_not_stands out) (Task.abandons_of_not_stands out _)
      (Task.unsent_of_not_stands out) (Task.unsent_of_not_stands stays) rfl (.inl rfl)
  | enters out | retires out =>
    exact .quiet (Task.logged?_of_not_stands out) (Task.abandons_of_not_stands out _)
      (Task.unsent_of_not_stands out) rfl rfl (.inl rfl)
  | acts held planned =>
    rw [h.setup] at planned
    have served := DatedRequest.serve_of_plan (checked rfl) planned
    exact .carries held rfl rfl (served ▸ rfl) (served ▸ rfl)
  | fails held planned =>
    rw [h.setup] at planned
    have served := DatedRequest.serve_of_plan_error (checked rfl) planned
    exact .carries held rfl rfl (served ▸ rfl) (served ▸ rfl)
  | sends sent => exact .sends (holder rfl trivial) sent
  | finds closed =>
    refine .loses (holder rfl trivial) rfl rfl (.inl ?_)
    have parted := Channel.send_eq_closed.mp closed
    rwa [h.receiver, Bool.and_true] at parted
  | abandons full =>
    exact .loses (holder rfl trivial) rfl rfl (.inr ⟨rfl, Channel.capacity_le_of_full full⟩)
  | sent => exact .quiet rfl rfl rfl rfl rfl (.inl rfl)
  | leaves out => exact .quiet rfl rfl rfl (Task.unsent_of_not_stands out) rfl (.inl rfl)
  | turns => exact .quiet rfl rfl rfl rfl rfl (.inl rfl)
  | closes => exact .quiet rfl rfl rfl rfl rfl (.inr rfl)

/-- What is published and what is to be sent grow with the events of the run, or what is to
be sent is lost, and then nothing more gets onto the channel. -/
theorem stream_effect (h : Stopping config table w s task) (here : task i = some t)
    (behind : InLine after.lock (placed task i next))
    (effect : StreamEffect config now i s t after next) :
    (∃ news, w.published after.events ++ after.lock.outstanding (placed task i next) =
        w.published s.events ++ s.lock.outstanding task ++ news ∧
      table.eventsOf config (w.after now i t next).requests =
        table.eventsOf config w.requests ++ news ∧
      (w.after now i t next).abandoned = w.abandoned) ∨
    (w.published after.events ++ after.lock.outstanding (placed task i next) =
        w.published s.events ∧
      table.eventsOf config (w.after now i t next).requests = table.eventsOf config w.requests ∧
      (w.after now i t next).Sealed after.events ∧ after.events.items = s.events.items) := by
  have idle : t.logged? now i = none →
      table.eventsOf config (w.after now i t next).requests =
        table.eventsOf config w.requests := by
    intro none
    simp [Watch.after, none]
  cases effect with
  | @carries visitor request after next holder lock events _ news =>
    refine .inl ⟨next.unsent, ?_, ?_, ?_⟩
    · rw [Lock.outstanding_of_holder holder here, lock, Lock.outstanding_placed holder, events]
      simp [Task.unsent]
    · have more : (w.after now i (.visiting visitor (.waiting request)) next).requests =
          w.requests ++ [⟨now, request⟩] := rfl
      rw [more, Table.eventsOf_append, ← h.candles, news]
      simp [Table.eventsOf, Table.serveAll]
    · simp [Watch.after, Task.abandons]
  | sends holder sent =>
    refine .inl ⟨[], ?_, ?_, ?_⟩
    · rw [Lock.outstanding_of_holder holder here, Lock.outstanding_placed holder, Watch.published,
        Watch.published, Channel.items_of_sent sent]
      simp [Task.unsent]
    · rw [idle rfl, List.append_nil]
    · simp [Watch.after, Task.abandons]
  | loses holder none nothing isSealed =>
    refine .inr ⟨?_, idle none, ?_, rfl⟩
    · rw [Lock.outstanding_placed holder, nothing, List.append_nil]
    · exact isSealed.imp_right fun full => ⟨by simp [Watch.after, full.1], full.2⟩
  | quiet none going nothing still _ events =>
    have items : after.events.items = s.events.items := by
      rcases events with events | events <;> rw [events]
      rfl
    refine .inl ⟨[], ?_, ?_, ?_⟩
    · rw [h.inLine.outstanding_placed behind here nothing still, Watch.published, items,
        Watch.published, List.append_nil]
    · rw [idle none, List.append_nil]
    · simp [Watch.after, going]

theorem candles_effect (h : Stopping config table w s task)
    (effect : StreamEffect config now i s t after next) :
    after.table = table.after config (w.after now i t next).requests := by
  have idle : t.logged? now i = none → (w.after now i t next).requests = w.requests := by
    intro none
    simp [Watch.after, none]
  cases effect with
  | @carries visitor request after next _ _ _ moved =>
    have more : (w.after now i (.visiting visitor (.waiting request)) next).requests =
        w.requests ++ [⟨now, request⟩] := rfl
    rw [moved, h.candles, more, Table.after_snoc]
  | sends => exact (idle rfl).symm ▸ h.candles
  | loses _ none => exact (idle none).symm ▸ h.candles
  | quiet none _ _ _ same => exact same.trans ((idle none).symm ▸ h.candles)

theorem step (h : Stopping config table w s task) (here : task i = some t)
    (step : UserStep now i s t after next) :
    Stopping config table (w.after now i t next) after (placed task i next) := by
  have effect := h.effect here step
  have behind := step.inLine h.inLine here
  refine ⟨step.config_eq.trans h.setup, step.hasReceiver_eq.trans h.receiver, behind, ?_,
    h.candles_effect effect, ?_, fun quiet => ?_⟩
  · intro k u there
    rcases placed_cases there with ⟨-, rfl⟩ | ⟨-, there⟩
    · exact step.ofUser (h.users i t here)
    · exact h.users k u there
  · rcases h.stream_effect here behind effect with
      ⟨news, stream, events, -⟩ | ⟨stream, events, -, -⟩
    · rw [events]
      exact stream ▸ h.drawn.append (List.Sublist.refl news)
    · rw [events]
      exact stream ▸ (List.sublist_append_left _ _).trans h.drawn
  · rcases h.stream_effect here behind effect with
      ⟨news, stream, events, going⟩ | ⟨-, events, isSealed, items⟩
    · rw [events]
      rcases h.whole quiet with ⟨kept, whole⟩ | ⟨isSealed, first⟩
      · exact .inl ⟨going.trans kept, stream.trans (congrArg (· ++ news) whole)⟩
      · obtain ⟨still, items⟩ := effect.isSealed isSealed
        refine .inr ⟨still, ?_⟩
        rw [Watch.published, items]
        exact first.trans (List.prefix_append _ news)
    · rw [events]
      refine .inr ⟨isSealed, ?_⟩
      rw [Watch.published, items]
      rcases h.whole quiet with ⟨-, whole⟩ | ⟨-, first⟩
      · exact whole ▸ List.prefix_append _ _
      · exact first

-- ---------------------------------------------------------------------------
-- What comes from outside
-- ---------------------------------------------------------------------------

theorem comes (h : Stopping config table w s task) (absent : task i = none)
    (user : t.OfUser) (out : ¬ t.Stands) : Stopping config table w s (placed task i t) := by
  have outstanding : s.lock.outstanding (placed task i t) = s.lock.outstanding task :=
    Lock.ofHolder_placed_of_ne (h.inLine.holder_ne absent)
  refine ⟨h.setup, h.receiver, h.inLine.join absent out, fun k u there => ?_, h.candles,
    outstanding.symm ▸ h.drawn, outstanding.symm ▸ h.whole⟩
  rcases placed_cases there with ⟨-, rfl⟩ | ⟨-, there⟩
  · exact user
  · exact h.users k u there

theorem takes (h : Stopping config table w s task) {event : Event} {events : Channel Event}
    (taken : s.events.receive = .item event events) :
    Stopping config table (w.take s.events event) { s with events := events } task := by
  have published : (w.take s.events event).published events = w.published s.events :=
    Watch.published_take taken
  obtain ⟨-, rest⟩ := Channel.eq_of_received taken
  refine ⟨h.setup, (congrArg Channel.hasReceiver rest).trans h.receiver, h.inLine, h.users,
    h.candles, published.symm ▸ h.drawn, fun quiet => ?_⟩
  obtain ⟨before, closed⟩ := Watch.of_relieved_take quiet
  rcases h.whole before with ⟨kept, whole⟩ | ⟨isSealed, first⟩
  · exact .inl ⟨kept, published.symm ▸ whole⟩
  · have parted : s.events.hasSender = false :=
      isSealed.elim id fun full => closed full.1
    exact .inr ⟨.inl ((congrArg Channel.hasSender rest).trans parted), published.symm ▸ first⟩

end Stopping

end

-- ---------------------------------------------------------------------------
-- Runs
-- ---------------------------------------------------------------------------

section
variable {start p q : Pipeline} {w v : Watch} {config : StoreConfig} {table : Table}
  {o : Occurrence}

theorem Pipeline.task_size (p : Pipeline) : p.task p.tasks.size = none :=
  Array.getElem?_eq_none (Nat.le_refl _)

theorem Pipeline.task_push (p : Pipeline) (t : Task) :
    ({ p with tasks := p.tasks.push t } : Pipeline).task = placed p.task p.tasks.size t := by
  funext k
  simp only [Pipeline.task, Array.getElem?_push, placed]

theorem Stopping.step_inv (h : Stopping config table w p.store p.task) {i : Nat}
    (stepped : Pipeline.step? i p = some q) :
    ∃ t next, p.task i = some t ∧ UserStep p.now i p.store t q.store next ∧
      q.task = placed p.task i next ∧ w.step p q i = w.after p.now i t next := by
  cases here : p.tasks[i]? with
  | none => simp [Pipeline.step?, here] at stepped
  | some t =>
    obtain ⟨store, next, step, rfl⟩ :=
      Pipeline.userStep_of_step? here (h.users i t here) stepped
    have moved := Pipeline.task_put here store next
    have there : ((p.withStore store).put i next).tasks[i]? = some next :=
      (congrFun moved i).trans (placed_self ..)
    exact ⟨t, next, here, step, moved, by simp [Watch.step, Watch.after, here, there]⟩

theorem Stopping.occur (h : Stopping config table w p.store p.task)
    (occurred : o.occur? p w = some (q, v)) : Stopping config table v q.store q.task := by
  cases o with
  | calls call =>
    cases occurred
    rw [Pipeline.task_start]
    exact h.comes p.task_size (.calling call) id
  | spawns =>
    cases occurred
    rw [Pipeline.task_push]
    exact h.comes p.task_size .refreshing id
  | step i =>
    dsimp only [Occurrence.occur?] at occurred
    split at occurred
    · next stepped =>
      cases occurred
      obtain ⟨t, next, here, step, moved, noted⟩ := h.step_inv stepped
      rw [moved, noted]
      exact h.step here step
    · cases occurred
  | takes =>
    dsimp only [Occurrence.occur?] at occurred
    split at occurred
    · next taken =>
      cases occurred
      exact h.takes taken
    · cases occurred
  | elapses clock millis =>
    cases occurred
    exact h
  | cancels =>
    cases occurred
    exact ⟨h.setup, h.receiver, h.inLine, h.users, h.candles, h.drawn, h.whole⟩

/-- Once an event has been given up, nothing more is published, unless an event is taken
while the channel is not yet closed. -/
theorem Stopping.published_occur (h : Stopping config table w p.store p.task)
    (occurred : o.occur? p w = some (q, v)) (quiet : v.relieved = []) :
    w.relieved = [] ∧ (w.abandoned = true →
      v.abandoned = true ∧ v.published q.store.events = w.published p.store.events) := by
  cases o with
  | step i =>
    dsimp only [Occurrence.occur?] at occurred
    split at occurred
    · next stepped =>
      cases occurred
      obtain ⟨t, next, here, step, -, noted⟩ := h.step_inv stepped
      rw [noted] at quiet ⊢
      refine ⟨quiet, fun abandoned => ⟨by simp [Watch.after, abandoned], ?_⟩⟩
      rcases h.whole quiet with ⟨going, -⟩ | ⟨isSealed, -⟩
      · exact absurd (abandoned.symm.trans going) (Bool.false_ne_true ∘ Eq.symm)
      · have items := ((h.effect here step).isSealed isSealed).2
        exact congrArg (w.received ++ ·) items
    · cases occurred
  | takes =>
    dsimp only [Occurrence.occur?] at occurred
    split at occurred
    · next taken =>
      cases occurred
      exact ⟨(Watch.of_relieved_take quiet).1, fun abandoned =>
        ⟨abandoned, Watch.published_take taken⟩⟩
    · cases occurred
  | _ =>
    cases occurred
    exact ⟨quiet, fun abandoned => ⟨abandoned, rfl⟩⟩

theorem Idle.stopping (idle : Idle start) :
    Stopping start.store.config start.store.table {} start.store start.task := by
  have nobody : ∀ i, start.task i = none := fun i => by simp [Pipeline.task, idle.tasks]
  have serial := idle.serial
  have outstanding : start.store.lock.outstanding start.task = [] :=
    Lock.ofHolder_none (by rw [idle.lock])
  have whole := serial.stream
  refine ⟨rfl, serial.opened.receiver, serial.inLine, fun i t there => ?_, rfl, ?_, fun _ => ?_⟩
  · rw [nobody] at there
    cases there
  · exact (Eq.symm whole) ▸ List.Sublist.refl _
  · exact .inl ⟨rfl, whole⟩

theorem Stopping.watch (h : Stopping config table w p.store p.task) {occurrences : List Occurrence}
    (ran : p.watch? w occurrences = some (q, v)) : Stopping config table v q.store q.task := by
  induction occurrences generalizing p w with
  | nil =>
    cases ran
    exact h
  | cons first rest ih =>
    rw [Pipeline.watch?] at ran
    split at ran
    · next occurred => exact ih (h.occur occurred) ran
    · cases ran

theorem Stopping.published_watch (h : Stopping config table w p.store p.task)
    {occurrences : List Occurrence} (ran : p.watch? w occurrences = some (q, v))
    (quiet : v.relieved = []) :
    w.relieved = [] ∧ (w.abandoned = true →
      v.abandoned = true ∧ v.published q.store.events = w.published p.store.events) := by
  induction occurrences generalizing p w with
  | nil =>
    cases ran
    exact ⟨quiet, fun abandoned => ⟨abandoned, rfl⟩⟩
  | cons first rest ih =>
    rw [Pipeline.watch?] at ran
    split at ran
    · next occurred =>
      obtain ⟨between, later⟩ := ih (h.occur occurred) ran
      obtain ⟨before, now⟩ := h.published_occur occurred between
      refine ⟨before, fun abandoned => ?_⟩
      obtain ⟨still, same⟩ := now abandoned
      exact ⟨(later still).1, (later still).2.trans same⟩
    · cases ran

/-- Whatever calls and refreshers do while a store is told to stop, what is received and
queued are events of the same requests without a stop, in their order and none of them
twice. As long as no event is taken between the first one that is given up and the closing
of the channel, they are the first of those events, and none is published after one was
given up. -/
theorem stream_cut_short {before after : List Occurrence} (idle : Idle start)
    (ran : start.watch? {} before = some (p, w)) (went : p.watch? w after = some (q, v)) :
    (v.received ++ q.store.events.items).Sublist
      (start.store.table.eventsOf start.store.config v.requests) ∧
    (v.relieved = [] →
      v.received ++ q.store.events.items <+:
        start.store.table.eventsOf start.store.config v.requests ∧
      (w.abandoned = true →
        v.received ++ q.store.events.items = w.received ++ p.store.events.items)) := by
  have midway := idle.stopping.watch ran
  have last := midway.watch went
  refine ⟨(List.sublist_append_left _ _).trans last.drawn, fun quiet => ⟨?_, fun abandoned => ?_⟩⟩
  · rcases last.whole quiet with ⟨-, whole⟩ | ⟨-, first⟩
    · exact whole ▸ List.prefix_append _ _
    · exact first
  · exact ((midway.published_watch went quiet).2 abandoned).2

end

-- ---------------------------------------------------------------------------
-- One slot
-- ---------------------------------------------------------------------------

def higherDeal : Deal := { earlyDeal with price := ⟨(Decimal.ofParts? 11 0).getD .zero⟩ }

/-- A deal of which only the first event finds room, while a refresher is told to stop. -/
def givenUp : List Occurrence :=
  [.calls (.request (.deal earlyDeal)), .spawns, .step 0, .step 1, .step 0, .step 0, .cancels,
    .step 1, .step 0]

/-- The refresher closes the channel before the second deal is carried out and the first
event is taken. -/
def closedFirst : List Occurrence :=
  [.step 0, .calls (.request (.deal higherDeal)), .step 2, .step 1, .step 2, .step 2, .takes]

theorem closedFirst_cut_short :
    ∃ p w q v, oneSlot.watch? {} givenUp = some (p, w) ∧ p.watch? w closedFirst = some (q, v) ∧
      w.abandoned = true ∧ v.relieved = [] ∧ v.requests.length = 2 ∧ v.received.length = 1 ∧
      v.received ++ q.store.events.items <+:
        oneSlot.store.table.eventsOf oneSlot.store.config v.requests ∧
      v.received ++ q.store.events.items = w.received ++ p.store.events.items := by
  have idle : Idle oneSlot := ⟨rfl, rfl, ⟨1, rfl⟩, rfl⟩
  have runs : (oneSlot.watch? {} givenUp).isSome := by decide +kernel
  obtain ⟨⟨p, w⟩, ran⟩ := Option.isSome_iff_exists.mp runs
  have goes : ∀ r ∈ oneSlot.watch? {} givenUp, r.2.abandoned = true ∧
      (r.1.watch? r.2 closedFirst).isSome ∧
      ∀ s ∈ r.1.watch? r.2 closedFirst,
        s.2.relieved = [] ∧ s.2.requests.length = 2 ∧ s.2.received.length = 1 := by
    decide +kernel
  obtain ⟨abandoned, goesOn, ends⟩ := goes _ ran
  obtain ⟨⟨q, v⟩, went⟩ := Option.isSome_iff_exists.mp goesOn
  obtain ⟨quiet, requests, received⟩ := ends _ went
  obtain ⟨-, short⟩ := stream_cut_short idle ran went
  exact ⟨p, w, q, v, ran, went, abandoned, quiet, requests, received, (short quiet).1,
    (short quiet).2 abandoned⟩

/-- A deal of which only the first event finds room, as the store is told to stop; there is
no refresher. -/
def givenUpAlone : List Occurrence :=
  [.calls (.request (.deal earlyDeal)), .step 0, .step 0, .step 0, .cancels, .step 0, .step 0]

/-- The first event is taken while the channel is open, which makes room for the event of the
next deal. -/
def takenFirst : List Occurrence :=
  [.takes, .calls (.request (.deal higherDeal)), .step 1, .step 1, .step 1, .takes]

/-- After the second event of a deal was given up, the event of the next deal is received in
its place. -/
theorem stream_resumes :
    (oneSlot.watch? {} (givenUpAlone ++ takenFirst)).isSome ∧
    (∀ r ∈ oneSlot.watch? {} givenUpAlone, r.2.abandoned = true ∧ r.2.received = [] ∧
      r.1.store.events.items.length = 1) ∧
    ∀ r ∈ oneSlot.watch? {} (givenUpAlone ++ takenFirst),
      r.2.requests.map DatedRequest.request = [.deal earlyDeal, .deal higherDeal] ∧
      r.2.received.length = 2 ∧
      ¬ r.2.received <+: oneSlot.store.table.eventsOf oneSlot.store.config r.2.requests := by
  decide +kernel

end Candlestick
