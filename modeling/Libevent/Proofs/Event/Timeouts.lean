import Libevent.Proofs.Event.Add

/-!
# `Libevent.Proofs.Event.Timeouts`: timeouts that expire

`timeout_process` and `common_timeout_callback` delete the events that are due and activate
them. `common_timeout_callback` ends with an empty list or with its timer scheduled for the
first event, so that every list has its deadline again. Events that are not due are not
touched (`timeoutProcess_processed`, `commonTimeoutCallback_yields`).
-/

namespace Libevent

open Lib

variable {β : Type} {s s' : EventBase β} {ev : EvId} {debugMode : Bool} {evsel evsigsel : EventOp β}
  {now : Timeval}

/-! ### Timeouts that the callers may ask for -/

/-- A timeout that `event_add` may be given. -/
theorem timeoutOk_of_legal (h : Inv s) {tv : Timeval} (hl : TimeoutLegal s tv) (e : Event) :
    TimeoutOk s e tv false := by
  rcases hl with hlt | ⟨c, hc, rfl⟩
  · have hcommon : isCommonTimeout tv s.commonTimeoutQueues.length = false :=
      isCommonTimeout_of_lt (by omega) _
    have hdl : deadline s tv false = evutilTimeradd s.tvNow tv := by
      unfold deadline
      rw [if_neg (by decide), if_neg (show ¬ s.isCommon tv = true from ne_true_of_eq_false hcommon)]
    have hdlt : (deadline s tv false).tvUsec < 1000000 := by
      rw [hdl]; exact evutilTimeradd_lt h.now hlt.le
    refine ⟨.inl hdlt, ?_, fun hp => .inr ?_⟩
    · rw [hcommon]; exact isCommonTimeout_of_lt (by omega) _
    have hp : e.evClosure = .eventPersist := hp
    simp only [hp, and_self, if_true]
    exact ⟨.inl hlt.le, by omega⟩
  · obtain ⟨i, hi⟩ := List.getElem?_of_mem hc
    obtain ⟨hcommon, -, hmod, h32⟩ := h.timers.duration i c hi
    have hlt : (evutilTimeradd s.tvNow c.duration.masked).tvUsec < 1000000 :=
      evutilTimeradd_lt h.now (by rw [masked_tvUsec]; exact hmod)
    have hdl : deadline s c.duration false = ⟨(evutilTimeradd s.tvNow c.duration.masked).tvSec,
          (evutilTimeradd s.tvNow c.duration.masked).tvUsec ||| magicBits c.duration.tvUsec⟩ := by
      unfold deadline
      rw [if_neg (by decide), if_pos (show s.isCommon c.duration = true from hcommon)]
    obtain ⟨hok, hcommon', -, hsame⟩ := commonDeadline_spec
      (evutilTimeradd s.tvNow c.duration.masked).tvSec hlt hcommon h32
    refine ⟨by rw [hdl]; exact hok, by rw [hdl, hcommon]; exact hcommon', fun hp => .inr ?_⟩
    have hp : e.evClosure = .eventPersist := hp
    simp only [hp]
    exact ⟨.inr ⟨hcommon, hmod, h32⟩, by rw [hdl]; exact hsame⟩

@[simp] theorem deadline_absolute (s : EventBase β) (tv : Timeval) : deadline s tv true = tv := rfl

/-- The microseconds of `persistRunAt` are those of a normal time, below the magic bits. -/
theorem persistRunAt_eq (h : Inv s) (ev : EvId)
    (hdelay : (if s.isCommon (s.evs ev).evTimeout then (s.evs ev).evIoTimeout.masked
      else (s.evs ev).evIoTimeout).tvUsec ≤ 1000000) :
    ∃ sec usec, usec < 1000000 ∧ persistRunAt s ev = ⟨sec, usec |||
      if s.isCommon (s.evs ev).evTimeout then magicBits (s.evs ev).evIoTimeout.tvUsec else 0⟩ := by
  refine ⟨_, _, ?_, rfl⟩
  generalize (if s.isCommon (s.evs ev).evTimeout then (s.evs ev).evIoTimeout.masked
    else (s.evs ev).evIoTimeout) = delay at hdelay ⊢
  generalize hto : (if hasAny (s.evs ev).evRes EV_TIMEOUT then
    (if s.isCommon (s.evs ev).evTimeout then (s.evs ev).evTimeout.masked
      else (s.evs ev).evTimeout) else s.tvNow) = relativeTo
  have hrel : relativeTo.tvUsec < 1000000 := by
    have hok := h.time.tv_ok ev
    rw [← hto]
    split
    · split
      · exact hok.masked_lt
      · next hcommon => exact hok.resolve_right fun hc => hcommon hc.1
    · exact h.now
  split
  · exact evutilTimeradd_lt h.now hdelay
  · exact evutilTimeradd_lt hrel hdelay

/-- The time for which `event_persist_closure` adds the event again is one that the queue of
the event can hold. -/
theorem persistRunAt_spec (h : Inv s) (hp : PersistOk s.commonTimeoutQueues.length (s.evs ev))
    (hcl : (s.evs ev).evClosure = .eventPersist)
    (hset : (s.evs ev).evIoTimeout.tvSec ≠ 0 ∨ (s.evs ev).evIoTimeout.tvUsec ≠ 0) :
    isSameCommonTimeout (s.evs ev).evTimeout (s.evs ev).evIoTimeout = true ∧
      TimeoutOk s (s.evs ev) (persistRunAt s ev) true := by
  obtain ⟨hdur, hsame⟩ := (hp hcl).resolve_left fun heq => by rw [heq] at hset; simp at hset
  refine ⟨(isSameCommonTimeout_iff _ _).mpr hsame, ?_⟩
  cases hcommon : s.isCommon (s.evs ev).evTimeout with
  | true =>
    have hio : isCommonTimeout (s.evs ev).evIoTimeout s.commonTimeoutQueues.length = true := by
      have := (isCommonTimeout_iff _ _).mp hcommon
      rw [isCommonTimeout_iff]
      unfold EventBase.nCommonTimeouts at this
      omega
    obtain ⟨hmod, h32⟩ : (s.evs ev).evIoTimeout.tvUsec % 2 ^ 20 ≤ 1000000 ∧
        (s.evs ev).evIoTimeout.tvUsec < 2 ^ 32 := by
      rcases hdur with hle | ⟨-, hmod⟩
      · rw [isCommonTimeout_of_lt (by omega)] at hio
        cases hio
      · exact hmod
    obtain ⟨sec, usec, hlt, hrun⟩ := persistRunAt_eq h ev
      (by rw [hcommon, if_pos rfl, masked_tvUsec]; exact hmod)
    rw [hcommon] at hrun
    obtain ⟨hok, -, -, hmagic⟩ := commonDeadline_spec sec hlt hio h32
    rw [hrun]
    exact ⟨hok, rfl, fun _ => .inr ⟨by simpa using hdur, by simpa using hmagic⟩⟩
  | false =>
    have htv : (s.evs ev).evTimeout.tvUsec < 1000000 :=
      (h.time.tv_ok ev).resolve_right fun hc =>
        ne_true_of_eq_false hcommon hc.1
    have hio : (s.evs ev).evIoTimeout.tvUsec ≤ 1000000 := by
      rcases hdur with hle | ⟨hc, -⟩
      · exact hle
      · rw [isCommonTimeout_of_lt (by omega)] at hc
        cases hc
    obtain ⟨sec, usec, hlt, hrun⟩ := persistRunAt_eq h ev (by rw [hcommon]; exact hio)
    rw [hcommon, if_neg (by decide), Nat.or_zero] at hrun
    rw [hrun]
    refine ⟨.inl hlt, rfl, fun _ => .inr ⟨by simpa using hdur, ?_⟩⟩
    show usec / 2 ^ 20 = _
    simp only [Bool.true_eq_false, and_false, if_false]
    omega

/-! ### One event that is due -/

/-- The event after its timeout has expired: it is active because of this, and on no other
structure. -/
def Event.expired (e : Event) : Event :=
  { e with evFlags := e.evFlags.unqueued }.activated EV_TIMEOUT 1

/-- What happens to the base when the timeout of `ev` expires: `ev` is deleted and activated. -/
structure Expired (s : EventBase β) (ev : EvId) (s' : EventBase β) : Prop where
  evs : ∀ x, x ≠ ev → s'.evs x = s.evs x
  self : s'.evs ev = (s.evs ev).expired
  queues : ∀ i, s'.activequeues i =
    (s.activequeues i).erase ev ++ if (s.evs ev).evPri = i then [ev] else []
  common : s'.commonTimeoutQueues = eraseCommon ev s.commonTimeoutQueues
  heap : s.timeheap.Mem ev → s'.timeheap.n < s.timeheap.n
  frame : Frame s s'

/-- An event with a timeout is not being finalized. -/
theorem Inv.not_finalizing (h : Inv s) (htime : (s.evs ev).evFlags.timeout = true) :
    (s.evs ev).evFlags.finalizing = false := by
  cases hf : (s.evs ev).evFlags.finalizing with
  | false => rfl
  | true =>
    have := ((h.ev ev).finalizing hf).1
    cases htime.symm.trans this

/-- `event_del_nolock_` and `event_active_nolock_` of an event that is due, before the rest of
a loop. -/
theorem expire_yields (hsel : evsel.NoFault) (hsig : evsigsel.NoFault) {skip : Option Nat}
    (h : Sound skip s) (htime : (s.evs ev).evFlags.timeout = true)
    (hint : (s.evs ev).evFlags.internal = false ∨ skip = none) {E : Fault → Prop}
    (hE : ∀ f, StaleWrite f ∧ StaleCalls s ev → E f)
    {k : EventBase β → Except Fault (EventBase β)} {post : EventBase β → Prop}
    (hk : ∀ s', Sound skip s' → Expired s ev s' → Yields E (k s') post) :
    Yields E (do
      let (_, s) ← eventDelNolock evsel evsigsel s ev false
      let s ← eventActiveNolock s ev EV_TIMEOUT 1
      k s) post := by
  have hfin := h.inv.not_finalizing htime
  refine Yields.bind ((eventDelNolock_yields hsel hsig h.inv (by simp [hfin])).weaken hE) ?_
  rintro ⟨r, s1⟩ hd
  have hself : s1.evs ev = { s.evs ev with evFlags := (s.evs ev).evFlags.unqueued } := by
    rw [hd.evs, upd_self]
  have hkind : KindOk (s1.evs ev) := by
    rw [hself]
    exact (h.inv.ev ev).kind (by simp [Event.queued, htime])
  -- a timer is active again at once, so its list does not lose its deadline
  have hsound : Sound skip (s1.activated ev EV_TIMEOUT 1) := by
    cases hi : (s.evs ev).evFlags.internal with
    | false => exact (h.deleted hd hi).activated hkind _ _
    | true =>
      obtain rfl : skip = none := hint.resolve_left (by rw [hi]; decide)
      obtain ⟨c, hc, rfl⟩ := h.inv.timers.internal ev hi
      obtain ⟨i, hc⟩ := List.getElem?_of_mem hc
      have hqueues : s1.commonTimeoutQueues = s.commonTimeoutQueues := by
        rw [hd.common]
        exact eraseCommon_eq_self fun d hd' => h.inv.internal_not_mem hi hd'
      exact (h.deleted_timer hc hd).activated_timer (by rw [hqueues]; exact hc) _ _
  show Yields E (eventActiveNolock s1 ev EV_TIMEOUT 1 >>= k) post
  rw [(eventActiveNolock_spec hd.inv hkind EV_TIMEOUT 1).1]
  obtain ⟨hheap, hqueues, -, hframe⟩ := activated_rest s1 ev EV_TIMEOUT 1
  refine hk _ hsound ⟨fun x hx => ?_, ?_, fun i => ?_, ?_, ?_, hd.frame.trans hframe⟩
  · rw [activated_evs, upd_ne _ _ hx, hd.evs, upd_ne _ _ hx]
  · rw [activated_evs, upd_self, hself, Event.expired]
  · have hact : s1.activated ev EV_TIMEOUT 1 = (noteActive s1 ev EV_TIMEOUT 1).pushActive ev := by
      simp [EventBase.activated, hself, EvFlags.unqueued, hfin]
    have hpri : ((noteActive s1 ev EV_TIMEOUT 1).evs ev).evPri = (s.evs ev).evPri := by
      rw [noteActive_evs, upd_self, ((s1.evs ev).noted_alike _ _).pri, hself]
    rw [hact]
    show (if i = ((noteActive s1 ev EV_TIMEOUT 1).evs ev).evPri then
      s1.activequeues ((noteActive s1 ev EV_TIMEOUT 1).evs ev).evPri ++ [ev]
      else s1.activequeues i) = _
    rw [hpri, hd.queues, hd.queues]
    by_cases hi : i = (s.evs ev).evPri
    · simp [hi]
    · simp [hi, Ne.symm hi]
  · rw [hqueues, hd.common]
  · rw [hheap]; exact hd.heap_lt

/-! ### `timeout_process` -/

/-- Not in the time heap, or later than `now`. -/
def NotDue (s : EventBase β) (now : Timeval) (e : EvId) : Prop :=
  s.timeheap.Mem e → timeKey now < timeKey (s.evs e).evTimeout

/-- What `timeout_process` does at the time `now`: it takes the events of `l` out of the heap and
makes them active, in this order. -/
structure Processed (s : EventBase β) (now : Timeval) (l : List EvId) (s' : EventBase β) :
    Prop where
  mem : ∀ e, e ∈ l ↔ ¬ NotDue s now e
  nodup : l.Nodup
  sorted : l.Pairwise fun a b => timeKey (s.evs a).evTimeout ≤ timeKey (s.evs b).evTimeout
  heap : ∀ e, s'.timeheap.Mem e ↔ s.timeheap.Mem e ∧ NotDue s now e
  others : ∀ e, e ∉ l → s'.evs e = s.evs e
  expired : ∀ e ∈ l, s'.evs e = (s.evs e).expired
  queues : ∀ i, s'.activequeues i =
    (s.activequeues i).filter (· ∉ l) ++ l.filter fun e => (s.evs e).evPri = i

theorem Processed.nil (hlater : ∀ e, NotDue s now e) : Processed s now [] s where
  mem e := by simp [hlater e]
  nodup := List.nodup_nil
  sorted := List.Pairwise.nil
  heap e := by simp [hlater e]
  others _ _ := rfl
  expired := by simp
  queues := by simp

/-- The heap has lost the event `ev`. -/
theorem Inv.heap_mem_iff (h : Inv s) (h' : Inv s')
    (hoff : (s'.evs ev).evFlags.timeout = false) (hothers : ∀ x, x ≠ ev → s'.evs x = s.evs x)
    (hlen : s'.commonTimeoutQueues.length = s.commonTimeoutQueues.length) (x : EvId) :
    s'.timeheap.Mem x ↔ x ≠ ev ∧ s.timeheap.Mem x := by
  rw [h'.time.heap_mem, h.time.heap_mem, hlen]
  by_cases hx : x = ev
  · simp [hx, hoff]
  · simp [hx, hothers x hx]

theorem Expired.heap_mem (h : Inv s) (h' : Inv s') (hexp : Expired s ev s') (x : EvId) :
    s'.timeheap.Mem x ↔ x ≠ ev ∧ s.timeheap.Mem x := by
  refine h.heap_mem_iff h' ?_ hexp.evs (by rw [hexp.common, eraseCommon_length]) x
  rw [hexp.self]
  unfold Event.expired Event.activated
  split
  · rfl
  · rfl

theorem Expired.notDue_iff (h : Inv s) (h' : Inv s') (hexp : Expired s ev s') {x : EvId}
    (hx : x ≠ ev) : NotDue s' now x ↔ NotDue s now x := by
  rw [NotDue, NotDue, hexp.heap_mem h h', hexp.evs x hx, and_iff_right hx]

/-- The first event of the heap is due, and the rest is processed after it. -/
theorem Processed.cons {s1 : EventBase β} {l : List EvId} (h : Inv s) (h1 : Inv s1)
    (hexp : Expired s ev s1) (hdue : ¬ NotDue s now ev)
    (htop : ∀ x, s.timeheap.Mem x → timeKey (s.evs ev).evTimeout ≤ timeKey (s.evs x).evTimeout)
    (hp : Processed s1 now l s') : Processed s now (ev :: l) s' := by
  have hmem := hexp.heap_mem h h1
  have hnot : ∀ x, x ≠ ev → (NotDue s1 now x ↔ NotDue s now x) := fun _ => hexp.notDue_iff h h1
  have hout : ev ∉ l := fun hin => (hp.mem ev).mp hin fun hm => absurd rfl ((hmem ev).mp hm).1
  have hne : ∀ x ∈ l, x ≠ ev := fun x hx heq => hout (heq ▸ hx)
  refine ⟨fun e => ?_, List.nodup_cons.mpr ⟨hout, hp.nodup⟩, ?_, fun e => ?_, fun e he => ?_,
    fun e he => ?_, fun i => ?_⟩
  · by_cases he : e = ev
    · simp [he, hdue]
    · rw [List.mem_cons, or_iff_right he, hp.mem, hnot e he]
  · refine List.pairwise_cons.mpr ⟨fun x hx => ?_, hp.sorted.imp_of_mem fun {x y} hx hy hle => ?_⟩
    · have hm : s1.timeheap.Mem x := by
        by_contra hno
        exact (hp.mem x).mp hx fun hm => absurd hm hno
      exact htop x ((hmem x).mp hm).2
    · rwa [hexp.evs x (hne x hx), hexp.evs y (hne y hy)] at hle
  · rw [hp.heap, hmem]
    by_cases he : e = ev
    · simp [he, hdue]
    · rw [hnot e he, and_iff_right he]
  · rw [List.mem_cons, not_or] at he
    rw [hp.others e he.2, hexp.evs e he.1]
  · rcases List.mem_cons.mp he with rfl | he
    · rw [hp.others e hout, hexp.self]
    · rw [hp.expired e he, hexp.evs e (hne e he)]
  · have hpri : l.filter (fun e => (s1.evs e).evPri = i) = l.filter fun e => (s.evs e).evPri = i :=
      List.filter_congr fun x hx => by rw [hexp.evs x (hne x hx)]
    have hold : ((s.activequeues i).erase ev).filter (· ∉ l) =
        (s.activequeues i).filter (· ∉ ev :: l) := by
      rw [(h.act.nodup i).erase_eq_filter, List.filter_filter]
      exact List.filter_congr fun x _ => by by_cases hx : x = ev <;> simp [hx]
    rw [hp.queues, hexp.queues, hpri, List.filter_append, hold]
    by_cases hi : (s.evs ev).evPri = i
    · simp [hi, hout]
    · simp [hi]

/-- The write that can end `timeout_process`, and the event of which it is. -/
def StaleTimeout (s : EventBase β) (now : Timeval) (f : Fault) : Prop :=
  StaleWrite f ∧ ∃ e, ¬ NotDue s now e ∧ StaleCalls s e

section
variable (hsel : evsel.NoFault) (hsig : evsigsel.NoFault)
include hsel hsig

/-- The loop of `timeout_process`. It ends in a fault exactly when an event that is due has a stale
`ev_pncalls`. -/
theorem timeoutProcessLoop_yields (now : Timeval) (fuel : Nat) :
    ∀ s : EventBase β, s.timeheap.n < fuel → Sound none s →
      Yields (StaleTimeout s now) (timeoutProcessLoop evsel evsigsel now fuel s) fun s' =>
        Sound none s' ∧ Frame s s' ∧ (∃ l, Processed s now l s') ∧
          ∀ e, ¬ NotDue s now e → ¬ StaleCalls s e := by
  induction fuel with
  | zero => intro s hn; omega
  | succ fuel ih =>
    intro s hn h
    unfold timeoutProcessLoop
    cases htop : minHeapTop s.timeheap with
    | none =>
      have hnone : ∀ e, NotDue s now e := by
        rintro e ⟨i, hi, -⟩
        rw [minHeapTop, if_neg (by omega)] at htop
        cases htop
      exact ⟨h, Frame.refl s, ⟨[], Processed.nil hnone⟩, fun e he => absurd (hnone e) he⟩
    | some ev =>
      dsimp only
      obtain ⟨hmem, hle⟩ := h.inv.time.heap_ok.top_le htop
      split
      · next hlater =>
        rw [evutilTimercmpGt_iff] at hlater
        have hnone : ∀ e, NotDue s now e := fun e hm => hlater.trans_le (hle e hm)
        exact ⟨h, Frame.refl s, ⟨[], Processed.nil hnone⟩, fun e he => absurd (hnone e) he⟩
      next hdue =>
      rw [evutilTimercmpGt_iff] at hdue
      have hdue : ¬ NotDue s now ev := fun hnot => hdue (hnot hmem)
      have htime := ((h.inv.time.heap_mem ev).mp hmem).1
      by_cases hstale : StaleCalls s ev
      · rw [eventDelNolock_stale hstale (by simp [h.inv.not_finalizing htime])]
        exact ⟨rfl, ev, hdue, hstale⟩
      refine expire_yields hsel hsig h htime (.inr rfl)
        (fun f hf => ⟨hf.1, ev, hdue, hf.2⟩) fun s1 hs1 hexp => ?_
      have hlt := hexp.heap hmem
      -- the other events are due and have stale calls in the next round when they do in this one
      have hsame : ∀ e, e ≠ ev → ((¬ NotDue s1 now e ∧ StaleCalls s1 e) ↔
          (¬ NotDue s now e ∧ StaleCalls s e)) := by
        intro e hne
        rw [hexp.notDue_iff h.inv hs1.inv hne, StaleCalls, StaleCalls, hexp.evs e hne,
          hexp.frame.closure]
      refine ((ih s1 (by omega) hs1).weaken ?_).mono fun s' ⟨hs', hf, ⟨l, hl⟩, hnone⟩ =>
        ⟨hs', hexp.frame.trans hf, ⟨ev :: l, hl.cons h.inv hs1.inv hexp hdue hle⟩,
          fun e he hc => ?_⟩
      · rintro f ⟨hf, e, hnot, hcalls⟩
        have hne : e ≠ ev := fun heq => hnot fun hm =>
          absurd heq ((hexp.heap_mem h.inv hs1.inv e).mp hm).1
        obtain ⟨hnot, hcalls⟩ := (hsame e hne).mp ⟨hnot, hcalls⟩
        exact ⟨hf, e, hnot, hcalls⟩
      · by_cases hne : e = ev
        · exact hstale (hne ▸ hc)
        · obtain ⟨he, hc⟩ := (hsame e hne).mpr ⟨he, hc⟩
          exact hnone e he hc

/-- `timeout_process`. -/
theorem timeoutProcess_processed (h : Sound none s) :
    Yields (StaleTimeout s s.tvNow) (timeoutProcess evsel evsigsel s) fun s' =>
      Sound none s' ∧ Frame s s' ∧ (∃ l, Processed s s.tvNow l s') ∧
        ∀ e, ¬ NotDue s s.tvNow e → ¬ StaleCalls s e := by
  unfold timeoutProcess
  split
  · next hn =>
    have hnone : ∀ e, NotDue s s.tvNow e := by
      rintro e ⟨i, hi, -⟩
      omega
    exact ⟨h, Frame.refl s, ⟨[], Processed.nil hnone⟩, fun e he => absurd (hnone e) he⟩
  · exact timeoutProcessLoop_yields hsel hsig s.tvNow _ s (Nat.lt_succ_self _) h

theorem timeoutProcess_yields (h : Sound none s) :
    Yields StaleWrite (timeoutProcess evsel evsigsel s) fun s' =>
      Sound none s' ∧ Frame s s' ∧ ∀ e, NotDue s s.tvNow e → s'.evs e = s.evs e :=
  ((timeoutProcess_processed hsel hsig h).weaken fun _ => And.left).mono
    fun _ ⟨hs', hf, ⟨_, hl⟩, _⟩ =>
    ⟨hs', hf, fun e he => hl.others e fun hin => (hl.mem e).mp hin he⟩

/-! ### `common_timeout_callback` -/

/-- Not in the list number `i`, or later than `now`. -/
def NotDueIn (s : EventBase β) (now : Timeval) (i : Nat) (e : EvId) : Prop :=
  ∀ c, s.commonTimeoutQueues[i]? = some c → e ∈ c.events →
    timeKey now < timeKey (s.evs e).evTimeout.masked

/-- The events whose time has not come are left as they are. Induction on the fuel. -/
theorem commonTimeoutLoop_yields (now : Timeval) (i fuel : Nat) :
    ∀ (s : EventBase β) (c : CommonTimeoutList),
      s.commonTimeoutQueues[i]? = some c → c.events.length < fuel → Sound (some i) s →
      Yields StaleWrite (commonTimeoutLoop debugMode evsel evsigsel now i fuel s) fun s' =>
        Sound none s' ∧ Frame s s' ∧ ∀ e, (s.evs e).evFlags.internal = false →
          NotDueIn s now i e → s'.evs e = s.evs e := by
  induction fuel with
  | zero => intro s c hc hn; omega
  | succ fuel ih =>
    intro s c hc hn h
    unfold commonTimeoutLoop
    rw [hc]
    dsimp only
    cases hhead : c.events.head? with
    | none =>
      refine ⟨⟨h.inv, h.persist, fun j _ => ?_⟩, Frame.refl s, fun _ _ _ => rfl⟩
      by_cases hij : i = j
      · subst hij
        intro d head hd hhd
        cases hc.symm.trans hd
        cases hhead.symm.trans hhd
      · exact h.deadline j (by simpa using hij)
    | some ev =>
      dsimp only
      have hmem : ev ∈ c.events := List.mem_of_mem_head? hhead
      have hint : (s.evs ev).evFlags.internal = false := by
        cases hi : (s.evs ev).evFlags.internal with
        | false => rfl
        | true => exact absurd hmem (h.inv.internal_not_mem hi (List.mem_of_getElem? hc))
      split
      · refine Yields.bind (schedule_yields 0 h hc hhead) fun p hp => ?_
        refine ⟨hp.1, hp.2.frame, fun e he _ => hp.2.evs e fun heq => ?_⟩
        have := h.inv.timer_internal hc
        rw [← heq, he] at this
        cases this
      next hdue =>
      have hdue : timeKey (s.evs ev).evTimeout.masked ≤ timeKey now := by
        unfold timeKey
        rw [Prod.Lex.toLex_le_toLex]
        simp only [masked_tvSec]
        show _ ∨ _ ∧ (s.evs ev).evTimeout.tvUsec &&& MICROSECONDS_MASK ≤ now.tvUsec
        omega
      refine expire_yields hsel hsig h ((h.inv.time.common_mem i c hc ev).mp hmem).1
        (.inl hint) (fun _ => And.left) fun s' hs' hexp => ?_
      have hc' : s'.commonTimeoutQueues[i]? = some { c with events := c.events.erase ev } := by
        rw [hexp.common, eraseCommon_getElem?, hc]
        rfl
      have hlen : (c.events.erase ev).length < c.events.length := by
        have hpos := List.length_pos_of_mem hmem
        rw [List.length_erase_of_mem hmem]
        omega
      refine (ih s' _ hc' (by dsimp only; omega) hs').mono fun s'' ⟨hs'', hf, hsame⟩ =>
        ⟨hs'', hexp.frame.trans hf, fun e he hnot => ?_⟩
      have hne : e ≠ ev := fun heq => by
        rw [heq] at hnot
        exact absurd (hnot c hc hmem) (not_lt.mpr hdue)
      rw [hsame e (by rw [hexp.evs e hne]; exact he), hexp.evs e hne]
      intro d hd hm
      cases hc'.symm.trans hd
      rw [hexp.evs e hne]
      exact hnot c hc (List.mem_of_mem_erase hm)

/-- `common_timeout_callback`. -/
theorem commonTimeoutCallback_yields {i : Nat}
    {c : CommonTimeoutList} (hc : s.commonTimeoutQueues[i]? = some c) (h : Sound (some i) s) :
    Yields StaleWrite (commonTimeoutCallback debugMode evsel evsigsel s i) fun s' =>
      Sound none s' ∧ Frame s s' ∧ ∀ e, (s.evs e).evFlags.internal = false →
        NotDueIn s s.tvNow i e → s'.evs e = s.evs e := by
  unfold commonTimeoutCallback
  rw [hc]
  exact commonTimeoutLoop_yields hsel hsig s.tvNow i _ s c hc (Nat.lt_succ_self _) h

end

end Libevent
