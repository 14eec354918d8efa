import Libevent.Proofs.Backends.Map

/-!
# `Libevent.Proofs.Epoll.Immediate`: the backend that applies every change at once

`ImmediateSet` is what `epollops` keeps: every `epoll_ctl` call so far succeeded, and an fd is in
the kernel's table exactly when something is wanted of it. Its `add` and its `del` are one
`epoll_ctl` call each, which replaces the mask of the fd (`ImmediateSet.add`, `ImmediateSet.del`).
Without `EV_ET` the mask is the interest itself (`LevelSet`).
-/

namespace Libevent

/-- What a base on `epollops` keeps. -/
structure ImmediateSet (b : EpollBase) (want : Nat → Interest) : Prop where
  registered : ∀ fd, (b.epollop.interest fd).isSome = (want fd).registered.isSome
  calls : ∀ c ∈ b.epollop.calls, c.errno = none
  changes : b.changelist.changes = []

/-- The invariant of a base on `epollops`. -/
abbrev ImmediateOk := MapOk fun b _ want => ImmediateSet b want

/-! ### The changes of `epollops` -/

/-- The `EV_ET` bit of a mask. -/
private theorem and_ET (events : Nat) : (events &&& EV_ET = 0 ∧ hasAny events EV_ET = false) ∨
      (events &&& EV_ET = EV_ET ∧ hasAny events EV_ET = true) := by
  have hpow : EV_ET = 2 ^ 5 := rfl
  have h := Nat.and_two_pow events 5
  rw [← hpow] at h
  cases hbit : events.testBit 5 <;> simp [hbit] at h
  · exact .inl ⟨h, by simp [hasAny, h]⟩
  · exact .inr ⟨h, by rw [hasAny, h]; rfl⟩

/-- The change that an add of `i` (with `EV_ET` or not) makes, read by the table. -/
theorem nochangelistAddChange_codes (fd old events : Nat) (i : Interest) :
    let ch := nochangelistAddChange fd old ((events &&& EV_ET) ||| i.ev)
    ch.readChange &&& 3 = addCode i.read ∧ ch.writeChange &&& 3 = addCode i.write ∧
      ch.closeChange &&& 3 = addCode i.closed := by
  obtain ⟨a, b, c⟩ := i
  rcases and_ET events with ⟨h, -⟩ | ⟨h, -⟩ <;> rw [h] <;> cases a <;> cases b <;> cases c <;>
    simp [nochangelistAddChange, Interest.ev, addCode, hasAny, EV_CHANGE_ADD, EV_READ, EV_WRITE,
      EV_CLOSED, EV_ET]

/-- The change that an add of `i` makes has `EV_CHANGE_ET` for the registration exactly when
the event has `EV_ET` and `i` has `EV_READ` or `EV_WRITE`: the close change is not looked
at. -/
theorem nochangelistAddChange_et (fd old events : Nat) (i : Interest) :
    let ch := nochangelistAddChange fd old ((events &&& EV_ET) ||| i.ev)
    hasAny (ch.readChange ||| ch.writeChange) EV_CHANGE_ET =
      (hasAny events EV_ET && (i.read || i.write)) := by
  obtain ⟨a, b, c⟩ := i
  rcases and_ET events with ⟨h, het⟩ | ⟨h, het⟩ <;> rw [h, het] <;> cases a <;> cases b <;>
    cases c <;>
    simp [nochangelistAddChange, Interest.ev, hasAny, EV_CHANGE_ADD, EV_CHANGE_ET, EV_READ,
      EV_WRITE, EV_CLOSED, EV_ET]

theorem nochangelistDelChange_codes (fd old : Nat) (i : Interest) :
    let ch := nochangelistDelChange fd old i.ev
    ch.readChange &&& 3 = delCode i.read ∧ ch.writeChange &&& 3 = delCode i.write ∧
      ch.closeChange &&& 3 = delCode i.closed := by
  obtain ⟨a, b, c⟩ := i
  cases a <;> cases b <;> cases c <;>
    simp [nochangelistDelChange, Interest.ev, delCode, hasAny, EV_CHANGE_DEL, EV_READ, EV_WRITE,
      EV_CLOSED]

/-- A delete never has `EV_CHANGE_ET`. -/
theorem nochangelistDelChange_et (fd old events : Nat) :
    hasAny ((nochangelistDelChange fd old events).readChange |||
      (nochangelistDelChange fd old events).writeChange) EV_CHANGE_ET = false := by
  unfold nochangelistDelChange
  cases hasAny events EV_WRITE <;> cases hasAny events EV_READ <;>
    simp [hasAny, EV_CHANGE_DEL, EV_CHANGE_ET, EV_ET]

variable {ch : EventChange}

/-- A mask that a change without `EV_CHANGE_ET` registers. -/
theorem registeredBy_level (het : hasAny (ch.readChange ||| ch.writeChange) EV_CHANGE_ET = false)
    (i : Interest) :
    registeredBy ch i = i.registered := by
  unfold registeredBy Interest.registered etEvents
  rw [het]
  rfl

section
variable {b : EpollBase} {want : Nat → Interest} {i : Interest}

/-- A consistent change that changes something is one successful `epoll_ctl` call. -/
theorem ImmediateSet.applyOne (h : ImmediateSet b want) (fdinfo : Nat) {r w c : Nat}
    (hold : ch.oldEvents = (want ch.fd).ev)
    (hcodes : ch.readChange &&& 3 = r ∧ ch.writeChange &&& 3 = w ∧ ch.closeChange &&& 3 = c)
    (hcons : Consistent (want ch.fd) r w c) (hne : ¬(r = 0 ∧ w = 0 ∧ c = 0))
    (hi : (want ch.fd).change r w c = i) :
    ∃ ep', b.applyOne ch fdinfo = .ok (0, { b with epollop := ep' }, fdinfo) ∧
      ImmediateSet { b with epollop := ep' } (fun x => if x = ch.fd then i else want x) ∧
      ∀ x, ep'.interest x = if x = ch.fd then registeredBy ch i else b.epollop.interest x := by
  rcases epollApplyOneChange_run_eq b.epollop ch (want ch.fd) hold hcodes.1 hcodes.2.1 hcodes.2.2
    hcons (h.registered ch.fd) with ⟨h1, h2, h3, -⟩ | ⟨-, op, events, happ⟩
  · exact absurd ⟨h1, h2, h3⟩ hne
  rw [hi] at happ
  refine ⟨_, by rw [EpollBase.applyOne, happ], ⟨fun x => ?_, fun c hc => ?_, ?_⟩, fun _ => rfl⟩
  · show (if x = ch.fd then registeredBy ch i else b.epollop.interest x).isSome = _
    split
    · exact registeredBy_isSome ch i
    · exact h.registered x
  · rcases List.mem_cons.mp hc with rfl | hc
    · rfl
    · exact h.calls c hc
  · exact h.changes

/-- `epoll_nochangelist_add`. -/
theorem ImmediateSet.add (h : ImmediateSet b want) (hne : i ≠ Interest.empty)
    (events fd fdinfo : Nat) :
    ∃ ep', epollops.add b fd (want fd).ev ((events &&& EV_ET) ||| i.ev) fdinfo =
        .ok (0, { b with epollop := ep' }, fdinfo) ∧
      ImmediateSet { b with epollop := ep' } (fun x => if x = fd then (want fd).or i else want x) ∧
      ∀ x, ep'.interest x = if x = fd
        then registeredBy (nochangelistAddChange fd (want fd).ev ((events &&& EV_ET) ||| i.ev))
          ((want fd).or i)
        else b.epollop.interest x :=
  h.applyOne fdinfo rfl (nochangelistAddChange_codes fd (want fd).ev events i)
    (consistent_addCode _ _) (fun hz => hne ((addCode_eq_zero i).mp hz))
    (Interest.change_addCode _ _)

/-- `epoll_nochangelist_del`. -/
theorem ImmediateSet.del (h : ImmediateSet b want) (hne : i ≠ Interest.empty) {fd : Nat}
    (hsub : i.Sub (want fd)) (fdinfo : Nat) :
    ∃ ep', epollops.del b fd (want fd).ev i.ev fdinfo = .ok (0, { b with epollop := ep' }, fdinfo) ∧
      ImmediateSet { b with epollop := ep' }
        (fun x => if x = fd then (want fd).diff i else want x) ∧
      ∀ x, ep'.interest x = if x = fd
        then registeredBy (nochangelistDelChange fd (want fd).ev i.ev) ((want fd).diff i)
        else b.epollop.interest x :=
  h.applyOne fdinfo rfl (nochangelistDelChange_codes fd (want fd).ev i) hsub.consistent
    (fun hz => hne ((delCode_eq_zero i).mp hz)) (Interest.change_delCode _ _)

end

section
variable {evs : EvId → Event} {m : Evmap EpollBase}

/-- Without a changelist, a dispatch has nothing to apply. -/
theorem ioStep_dispatch_immediate (hch : m.evbase.changelist.changes = []) (debugMode : Bool) :
    ioStep debugMode epollops evs m .dispatch = .ok m := by
  obtain ⟨n, entries, sn, se, ⟨⟨changes, size⟩, ep, bmm⟩, mm⟩ := m
  subst hch
  rfl

theorem epollops_addKeeps (events : Nat) :
    AddKeeps epollops (events &&& EV_ET) fun b _ want => ImmediateSet b want := by
  intro b pos want i h hne fd
  obtain ⟨ep', hadd, hset, -⟩ := h.add hne events fd (pos fd)
  exact ⟨_, _, hadd, hset⟩

/-- Every legal action succeeds and keeps `ImmediateOk`. -/
theorem ImmediateOk.step (h : ImmediateOk evs m) (debugMode : Bool) {a : IoAction}
    (hlegal : IoLegal evs m a) :
    ∃ m', ioStep debugMode epollops evs m a = .ok m' ∧ ImmediateOk evs m' := by
  cases a with
  | add ev =>
    obtain ⟨m', hstep, hok, -⟩ := h.add (epollops_addKeeps (evs ev).evEvents) debugMode
    exact ⟨m', hstep, hok⟩
  | del ev =>
    obtain ⟨m', hstep, hok, -⟩ := h.del epollops debugMode hlegal.mem id fun hne hsub => by
      obtain ⟨ep', hdel, hset, -⟩ := h.backend.del hne hsub _
      exact ⟨_, _, hdel, hset⟩
    exact ⟨m', hstep, hok⟩
  | dispatch => exact ⟨m, ioStep_dispatch_immediate h.backend.changes debugMode, h⟩

/-- `ImmediateOk` holds of a base without events. -/
theorem ImmediateOk.start (evs : EvId → Event) : ImmediateOk evs Evmap.start :=
  MapOk.start ⟨fun _ => rfl, fun _ h => by simp at h, rfl⟩

end

end Libevent
