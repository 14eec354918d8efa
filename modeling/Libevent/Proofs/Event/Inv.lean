import Libevent.Event.Loop
import Libevent.Lib.Outcome
import Libevent.Lib.Tally
import Libevent.Proofs.Event.Timeval
import Libevent.Proofs.Evmap
import Libevent.Proofs.MinHeap

/-!
# `Libevent.Proofs.Event.Inv`: the invariant of an event base

One part of the invariant for each structure of the base: the timeouts (`TimeInv`), the active
queues (`ActiveInv`), the map (`MapInv`), the counter of events, the timers of the common
timeouts (`TimerInv`), and what holds of every single event (`EventOk`). Each part looks at a
few fields of the events only, and its `upd` lemma says which: it survives any change of one
event that leaves those fields alone.
-/

namespace Libevent

open scoped BigOperators

/-- The events with the event `ev` replaced. -/
def upd (evs : EvId → Event) (ev : EvId) (e : Event) : EvId → Event :=
  fun x => if x = ev then e else evs x

/-- New flags for the event `ev`. -/
abbrev updFlags (evs : EvId → Event) (ev : EvId) (fl : EvFlags) : EvId → Event :=
  upd evs ev { evs ev with evFlags := fl }

@[simp] theorem upd_self (evs : EvId → Event) (ev : EvId) (e : Event) : upd evs ev e ev = e :=
  if_pos rfl

variable {ev : EvId}

theorem upd_ne (evs : EvId → Event) {x : EvId} (e : Event) (h : x ≠ ev) : upd evs ev e x = evs x :=
  if_neg h

@[simp] theorem upd_upd (evs : EvId → Event) (ev : EvId) (e e' : Event) :
    upd (upd evs ev e) ev e' = upd evs ev e' := by
  funext x
  by_cases hx : x = ev
  · rw [hx, upd_self, upd_self]
  · rw [upd_ne _ _ hx, upd_ne _ _ hx, upd_ne _ _ hx]

variable {evs : EvId → Event} {e : Event}

theorem upd_eq_self (h : e = evs ev) : upd evs ev e = evs := by
  funext x
  by_cases hx : x = ev
  · rw [hx, upd_self, h]
  · rw [upd_ne _ _ hx]

/-- A field that the new event shares with the old one is the same for every event. -/
theorem upd_congr {γ : Type} (f : Event → γ) (h : f e = f (evs ev))
    (x : EvId) : f (upd evs ev e x) = f (evs x) := by
  by_cases hx : x = ev
  · rw [hx, upd_self, h]
  · rw [upd_ne evs e hx]

/-- New flags do not change a deadline. -/
theorem upd_flags_tv (evs : EvId → Event) (ev : EvId) (fl : EvFlags) (x : EvId) :
    (updFlags evs ev fl x).evTimeout = (evs x).evTimeout :=
  upd_congr Event.evTimeout (by rfl) x

theorem forall_upd (P : Event → Prop) (h : ∀ x, P (evs x)) (he : P e)
    (x : EvId) : P (upd evs ev e x) := by
  by_cases hx : x = ev
  · rw [hx, upd_self]; exact he
  · rw [upd_ne evs e hx]; exact h x

/-- The event is not the timer of a common timeout. -/
abbrev EventBase.External {β : Type} (s : EventBase β) (ev : EvId) : Prop :=
  (s.evs ev).evFlags.internal = false

/-! ### Timeouts -/

/-- Every event that is pending on a timeout is in the time heap, or in the list of its common
timeout, and in no other. The lists are in the order of the deadlines. -/
structure TimeInv (evs : EvId → Event) (heap : MinHeap EvId) (queues : List CommonTimeoutList) :
    Prop where
  heap_ok : heap.Ok fun e => timeKey (evs e).evTimeout
  heap_mem : ∀ e, heap.Mem e ↔ (evs e).evFlags.timeout = true ∧
    isCommonTimeout (evs e).evTimeout queues.length = false
  common_mem : ∀ i c, queues[i]? = some c → ∀ e, e ∈ c.events ↔ (evs e).evFlags.timeout = true ∧
    isCommonTimeout (evs e).evTimeout queues.length = true ∧ commonTimeoutIdx (evs e).evTimeout = i
  common_nodup : ∀ c ∈ queues, c.events.Nodup
  common_sorted : ∀ c ∈ queues,
    c.events.Pairwise fun a b => timeKey (evs a).evTimeout ≤ timeKey (evs b).evTimeout
  tv_ok : ∀ e, TvOk queues.length (evs e).evTimeout

variable {evs' : EvId → Event}

theorem TimeInv.congr {heap : MinHeap EvId} {queues : List CommonTimeoutList}
    (h : TimeInv evs heap queues) (hflag : ∀ x, (evs' x).evFlags.timeout = (evs x).evFlags.timeout)
    (htv : ∀ x, (evs' x).evTimeout = (evs x).evTimeout) : TimeInv evs' heap queues :=
  { h with
    heap_ok := by simpa only [htv] using h.heap_ok
    heap_mem := by simpa only [htv, hflag] using h.heap_mem
    common_mem := by simpa only [htv, hflag] using h.common_mem
    common_sorted := by simpa only [htv] using h.common_sorted
    tv_ok := by simpa only [htv] using h.tv_ok }

/-! ### The active queues -/

/-- Every active event is in the queue of its priority, every event that becomes active later
is in the other queue, and `event_count_active` counts them. -/
structure ActiveInv (evs : EvId → Event) (nactivequeues : Nat) (queues : Nat → List EvId)
    (later : List EvId) (count : Int) : Prop where
  mem : ∀ i e, e ∈ queues i ↔ (evs e).evFlags.active = true ∧ (evs e).evPri = i
  nodup : ∀ i, (queues i).Nodup
  later_mem : ∀ e, e ∈ later ↔ (evs e).evFlags.activeLater = true
  later_nodup : later.Nodup
  not_both : ∀ e, ¬((evs e).evFlags.active = true ∧ (evs e).evFlags.activeLater = true)
  pri : ∀ e, (evs e).evPri < nactivequeues
  count_eq : count = (∑ i ∈ Finset.range nactivequeues, ((queues i).length : Int)) + later.length

theorem ActiveInv.congr {n : Nat} {queues : Nat → List EvId} {later : List EvId} {count : Int}
    (h : ActiveInv evs n queues later count)
    (hactive : ∀ x, (evs' x).evFlags.active = (evs x).evFlags.active)
    (hlater : ∀ x, (evs' x).evFlags.activeLater = (evs x).evFlags.activeLater)
    (hpri : ∀ x, (evs' x).evPri = (evs x).evPri) : ActiveInv evs' n queues later count :=
  { h with
    mem := by simpa only [hactive, hpri] using h.mem
    later_mem := by simpa only [hlater] using h.later_mem
    not_both := by simpa only [hactive, hlater] using h.not_both
    pri := by simpa only [hpri] using h.pri }

/-! ### The map -/

/-- Every inserted event is in the list of its fd, or of its signal, and in no other. -/
structure MapInv {β : Type} (evs : EvId → Event) (m : Evmap β) : Prop where
  mm : m.mm.Reliable
  io_mem : ∀ (fd : Nat) e, e ∈ (m.io fd).events ↔ (evs e).evFlags.inserted = true ∧
    isIo (evs e).evEvents = true ∧ (evs e).evFd = fd
  io_nodup : ∀ fd, (m.io fd).events.Nodup
  counts : ∀ fd, CountsOk evs (m.io fd)
  io_bound : ∀ fd, (m.entries fd).isSome → fd < m.nentries
  sig_mem : ∀ (sig : Nat) e, e ∈ m.sig sig ↔ (evs e).evFlags.inserted = true ∧
    isIo (evs e).evEvents = false ∧ (evs e).evFd = sig
  sig_nodup : ∀ sig, (m.sig sig).Nodup
  sig_bound : ∀ sig, (m.sigEntries sig).isSome → sig < m.sigNentries

/-- The counters look at the masks of the events only. -/
theorem CountsOk.congr {ctx : EvmapIo} (h : CountsOk evs ctx)
    (hev : ∀ x ∈ ctx.events, (evs' x).evEvents = (evs x).evEvents) : CountsOk evs' ctx := by
  have hw : ∀ bit, wanting evs' bit ctx.events = wanting evs bit ctx.events := by
    intro bit
    exact List.countP_congr fun x hx => by rw [hev x hx]
  exact ⟨by rw [hw]; exact h.nread, by rw [hw]; exact h.nwrite, by rw [hw]; exact h.nclose⟩

theorem MapInv.congr {β : Type} {m : Evmap β} (h : MapInv evs m)
    (hins : ∀ x, (evs' x).evFlags.inserted = (evs x).evFlags.inserted) (hkind : ∀ x, (evs
      x).evFlags.inserted = true → (evs' x).evEvents = (evs x).evEvents ∧ (evs' x).evFd = (evs
      x).evFd) : MapInv evs' m :=
  { h with
    io_mem := fun fd e => by
      rw [h.io_mem, hins]
      refine and_congr_right fun hi => ?_
      rw [(hkind e hi).1, (hkind e hi).2]
    counts := fun fd => (h.counts fd).congr fun x hx => (hkind x ((h.io_mem fd x).mp hx).1).1
    sig_mem := fun sig e => by
      rw [h.sig_mem, hins]
      refine and_congr_right fun hi => ?_
      rw [(hkind e hi).1, (hkind e hi).2] }

/-- The map looks at the outcomes of the allocator only. -/
theorem MapInv.setMm {β : Type} {m : Evmap β} (h : MapInv evs m) {mm : Mm}
    (hmm : mm.Reliable) : MapInv evs { m with mm := mm } :=
  { h with mm := hmm }

/-! ### Single events, and the timers of the common timeouts -/

/-- What an event weighs in `event_count`. -/
def weight (e : Event) : Int :=
  if e.evFlags.internal then 0
  else (if e.evFlags.timeout then 1 else 0) + (if e.evFlags.inserted then 1 else 0) +
    (if e.evFlags.active || e.evFlags.activeLater then 1 else 0)

/-- The closures of events and callbacks that are being finalized. -/
def Closure.isFinal : Closure → Bool
  | .cbFinalize | .eventFinalize | .eventFinalizeFree => true
  | _ => false

/-- The event is on some structure of the base. -/
def Event.queued (e : Event) : Bool :=
  e.evFlags.timeout || e.evFlags.inserted || e.evFlags.active || e.evFlags.activeLater

/-- The kind of an event that `event_assign` accepted; a signal number is not negative. -/
def KindOk (e : Event) : Prop :=
  isSignal e.evEvents = true → isIo e.evEvents = false ∧ 0 ≤ e.evFd

/-- What holds of every single event. An event with a closure of `event_finalize` that is not
being finalized was left so by an `event_assign` that failed. A callback that is not part of an
event has no mask and no timeout. -/
structure EventOk (e : Event) : Prop where
  finalizing : e.evFlags.finalizing = true → e.evFlags.timeout = false ∧ e.evFlags.inserted = false
  kind : e.queued = true → KindOk e
  inserted : e.evFlags.inserted = true → isIo e.evEvents = true ∨ isSignal e.evEvents = true
  final : e.evClosure.isFinal = true → e.evFlags.finalizing = true ∨
    (isSignal e.evEvents = true ∧ isIo e.evEvents = true)
  plain : e.evFlags.init = false →
    e.evEvents = 0 ∧ e.evFlags.timeout = false ∧ e.evClosure ≠ .eventPersist
  internal : e.evFlags.internal = true → e.evFlags.init = true ∧ e.evEvents = 0 ∧
    e.evClosure = .event ∧ e.evFlags.finalizing = false ∧ e.evFlags.activeLater = false ∧
    e.evTimeout.tvUsec < 1000000

/-- The timers of the common timeouts: the internal events, one for each list. The duration
of a list carries its index. -/
structure TimerInv (evs : EvId → Event) (queues : List CommonTimeoutList) : Prop where
  timer : ∀ c ∈ queues, (evs c.timeoutEvent).evFlags.internal = true
  nodup : (queues.map CommonTimeoutList.timeoutEvent).Nodup
  internal : ∀ e, (evs e).evFlags.internal = true → ∃ c ∈ queues, c.timeoutEvent = e
  duration : ∀ i c, queues[i]? = some c → isCommonTimeout c.duration queues.length = true ∧
    commonTimeoutIdx c.duration = i ∧ c.duration.tvUsec % 2 ^ 20 ≤ 1000000 ∧
    c.duration.tvUsec < 2 ^ 32
  max : queues.length ≤ MAX_COMMON_TIMEOUTS

theorem TimerInv.congr {queues : List CommonTimeoutList} (h : TimerInv evs queues)
    (hint : ∀ x, (evs' x).evFlags.internal = (evs x).evFlags.internal) : TimerInv evs' queues :=
  { h with
    timer := by simpa only [hint] using h.timer
    internal := by simpa only [hint] using h.internal }

/-- The invariant of an event base. -/
structure Inv {β : Type} (s : EventBase β) : Prop where
  time : TimeInv s.evs s.timeheap s.commonTimeoutQueues
  act : ActiveInv s.evs s.nactivequeues s.activequeues s.activeLaterQueue s.eventCountActive
  map : MapInv s.evs s.evmap
  count : Lib.Tally (fun e => weight (s.evs e)) s.eventCount
  ev : ∀ e, EventOk (s.evs e)
  timers : TimerInv s.evs s.commonTimeoutQueues
  now : s.tvNow.tvUsec < 1000000

/-- What holds of a persistent event: the timeout with which it is added again is that of its
queue. -/
def PersistOk (n : Nat) (e : Event) : Prop :=
  e.evClosure = .eventPersist → e.evIoTimeout = {} ∨
    (DurationOk n e.evIoTimeout ∧ e.evTimeout.tvUsec / 2 ^ 20 = e.evIoTimeout.tvUsec / 2 ^ 20)

end Libevent
