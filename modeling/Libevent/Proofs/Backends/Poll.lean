import Libevent.Lib.Indexed
import Libevent.Proofs.Backends.Map

/-!
# `Libevent.Proofs.Backends.Poll`: what the poll backend has registered

`PollSet` relates a `struct pollop` to the positions that the map keeps for the fds and to what is
wanted of each fd. The array is an `Indexed` one, so `poll_add` and `poll_del` are the operations of
a finite map (`pollAdd_spec`, `pollDel_spec`). `poll_del` leaves a write to the map behind
(`PollMoved`), and with it `PollSet` holds again.
-/

namespace Libevent

open Lib

/-! ### Interests as masks -/

variable {i : Interest}

namespace Interest

/-- The mask for `struct pollfd`. -/
def poll (i : Interest) : BitVec 16 :=
  (if i.read then POLLIN else 0) ||| (if i.write then POLLOUT else 0)

/-- What is registered for the fd, if anything is. -/
def polled (i : Interest) : Option (BitVec 16) := if i.poll = 0 then none else some i.poll

theorem poll_or (i j : Interest) : (i.or j).poll = i.poll ||| j.poll := by
  obtain ⟨a, b, c⟩ := i
  obtain ⟨a', b', c'⟩ := j
  cases a <;> cases b <;> cases a' <;> cases b' <;> simp [poll, Interest.or, POLLIN, POLLOUT]

theorem poll_diff (i j : Interest) : (i.diff j).poll = i.poll &&& ~~~j.poll := by
  obtain ⟨a, b, c⟩ := i
  obtain ⟨a', b', c'⟩ := j
  cases a <;> cases b <;> cases a' <;> cases b' <;> simp [poll, diff, POLLIN, POLLOUT]

theorem poll_eq_zero_iff (i : Interest) : i.poll = 0 ↔ i.read = false ∧ i.write = false := by
  obtain ⟨a, b, c⟩ := i
  cases a <;> cases b <;> simp [poll, POLLIN, POLLOUT]

theorem or_poll_ne_zero {j : Interest} (hj : j.poll ≠ 0) : (i.or j).poll ≠ 0 := by
  rw [Ne, poll_eq_zero_iff] at hj ⊢
  rintro ⟨hr, hw⟩
  exact hj ⟨(Bool.or_eq_false_iff.mp hr).2, (Bool.or_eq_false_iff.mp hw).2⟩

theorem polled_eq_none_iff : i.polled = none ↔ i.poll = 0 := by
  rw [polled]
  split <;> simp_all

theorem polled_of_ne (h : i.poll ≠ 0) : i.polled = some i.poll := if_neg h

end Interest

variable {events : Nat}

theorem StandsFor.poll_eq_zero (h : StandsFor events i) :
    hasAny events (EV_READ ||| EV_WRITE) = false ↔ i.poll = 0 := by
  rw [h.readWrite, Interest.poll_eq_zero_iff, Bool.or_eq_false_iff]

theorem StandsFor.any_of_ne (h : StandsFor events i)
    (hne : i.poll ≠ 0) : hasAny events (EV_READ ||| EV_WRITE) = true := by
  by_contra hno
  exact hne (h.poll_eq_zero.mp (by simpa using hno))

/-! ### The array -/

/-- The state of the poll backend, for the positions `pos` of the fds and what is wanted of them. -/
structure PollSet (locking : Bool) (pop : PollOp) (pos : Nat → Nat) (want : Nat → Interest) :
    Prop where
  index : Indexed pop.nfds pop.eventSet PollFd.fd pos
  interest : ∀ fd, (lookup pop.eventSet pos fd).map (·.events) = (want fd).polled
  room : pop.nfds ≤ pop.eventCount
  copied : pop.reallocCopy = false → pop.copyCount = pop.eventCount
  polling : ∀ n, pop.polling = some n → n ≤ if locking then pop.copyCount else pop.eventCount
  moved : pop.moved = none
  mm : pop.mm.Reliable

section
variable {locking : Bool} {pop : PollOp} {pos : Nat → Nat} {want : Nat → Interest} {count : Nat}

theorem PollSet.pos_eq_zero_iff (h : PollSet locking pop pos want) (fd : Nat) :
    pos fd = 0 ↔ (want fd).poll = 0 := by
  rw [← Interest.polled_eq_none_iff, ← h.interest fd, Option.map_eq_none_iff, lookup_eq_none_iff]

theorem PollOp.entry_eq {i : Nat} (hi : i < pop.eventCount) : pop.entry i = .ok (pop.eventSet i) :=
  if_pos hi

theorem PollOp.setEntry_eq {i : Nat} (hi : i < pop.eventCount) (pfd : PollFd) : pop.setEntry i pfd =
      .ok { pop with eventSet := fun j => if j = i then pfd else pop.eventSet j } :=
  if_pos hi

/-- After `PollOp.grow` there is a free entry. -/
theorem PollSet.grow_spec (h : PollSet locking pop pos want) :
    ∃ pop1, pop.grow = (true, pop1) ∧ PollSet locking pop1 pos want ∧
      pop1.nfds < pop1.eventCount := by
  have hroom := h.room
  rw [PollOp.grow]
  split
  · next hfull =>
    rw [if_pos h.mm.alloc_fst]
    have hgrown : pop.eventCount < if pop.eventCount < 32 then 32 else pop.eventCount * 2 := by
      split <;> omega
    refine ⟨_, rfl, { h with room := hroom.trans hgrown.le, copied := nofun, polling := ?_ }, ?_⟩
    · intro n hn
      have hle := h.polling n hn
      cases locking with
      | true => exact hle
      | false => exact Nat.le_trans hle hgrown.le
    · exact Nat.lt_of_le_of_lt hroom hgrown
  · exact ⟨pop, rfl, h, by omega⟩

theorem PollFd.enable_fd (pfd : PollFd) (events : Nat) : (pfd.enable events).fd = pfd.fd := by
  unfold PollFd.enable
  split <;> split <;> rfl

theorem PollFd.disable_fd (pfd : PollFd) (events : Nat) : (pfd.disable events).fd = pfd.fd := by
  unfold PollFd.disable
  split <;> split <;> rfl

theorem PollFd.enable_events (h : StandsFor events i)
    (pfd : PollFd) : (pfd.enable events).events = pfd.events ||| i.poll := by
  unfold PollFd.enable Interest.poll
  rw [h.read, h.write]
  cases i.read <;> cases i.write <;> simp
  rw [BitVec.or_assoc, BitVec.or_comm POLLOUT]

theorem PollFd.disable_events (h : StandsFor events i)
    (pfd : PollFd) : (pfd.disable events).events = pfd.events &&& ~~~i.poll := by
  unfold PollFd.disable Interest.poll
  rw [h.read, h.write]
  have hones : pfd.events &&& 65535#16 = pfd.events := BitVec.and_allOnes
  cases i.read <;> cases i.write <;> simp [BitVec.and_assoc, BitVec.not_or, hones]

/-- What adding and deleting leave alone. -/
def PollOp.rest (pop : PollOp) : Nat × Nat × Bool × Option Nat × Mm :=
  (pop.eventCount, pop.copyCount, pop.reallocCopy, pop.polling, pop.mm)

section
variable (h : PollSet locking pop pos want)
include h

/-- One entry of the map is changed. -/
theorem PollSet.change {pop' : PollOp} {pos' : Nat → Nat}
    (hindex : Indexed pop'.nfds pop'.eventSet PollFd.fd pos') {fd : Nat} {e : Option PollFd}
    (hi : e.map (·.events) = i.polled)
    (hlookup : ∀ x, lookup pop'.eventSet pos' x = if x = fd then e else lookup pop.eventSet pos x)
    (hroom : pop'.nfds ≤ pop'.eventCount) (hrest : pop'.rest = pop.rest)
    (hmoved : pop'.moved = none) :
    PollSet locking pop' pos' fun x => if x = fd then i else want x := by
  simp only [PollOp.rest, Prod.mk.injEq] at hrest
  obtain ⟨hcount, hcopied, hcopy, hpolling, hmm⟩ := hrest
  refine ⟨hindex, fun x => ?_, hroom, ?_, ?_, hmoved, hmm ▸ h.mm⟩
  · rw [hlookup]
    split
    · exact hi
    · exact h.interest x
  · rw [hcopy, hcopied, hcount]
    exact h.copied
  · rw [hpolling, hcopied, hcount]
    exact h.polling

/-- What is wanted changes only for conditions that poll does not watch. -/
theorem PollSet.of_poll_eq {want' : Nat → Interest}
    (hwant : ∀ fd, (want' fd).poll = (want fd).poll) :
    PollSet locking pop pos want' :=
  { h with
    interest := by
      intro fd
      rw [h.interest, Interest.polled, Interest.polled, hwant] }

/-- `poll_add` for the conditions `i`. -/
theorem pollAdd_spec (hi : StandsFor events i) (fd old : Nat) :
    ∃ pop' idx, pollAdd pop fd old events (pos fd) = .ok (0, pop', idx) ∧
      PollSet locking pop' (fun x => if x = fd then idx else pos x)
        (fun x => if x = fd then (want fd).or i else want x) := by
  have hsame := write_self pos fd
  rw [pollAdd, if_neg (by simp [hi.signal])]
  by_cases hzero : i.poll = 0
  · -- nothing that poll watches
    rw [if_pos (by simp [hi.poll_eq_zero.mpr hzero])]
    refine ⟨pop, pos fd, rfl, ?_⟩
    rw [hsame]
    refine h.of_poll_eq fun x => ?_
    split
    · next hx => simp [Interest.poll_or, hzero, hx]
    · rfl
  obtain ⟨pop1, hgrow, h1, hfree⟩ := h.grow_spec
  rw [if_neg (by simp [hi.any_of_ne hzero]), hgrow]
  have hwanted := Interest.polled_of_ne (Interest.or_poll_ne_zero (i := want fd) hzero)
  cases hpos : pos fd with
  | zero =>
    have hnone : (want fd).poll = 0 := (h1.pos_eq_zero_iff fd).mp hpos
    let pfd : PollFd :=
      ({ pop1.eventSet pop1.nfds with events := 0, fd := fd } : PollFd).enable events
    let pop' : PollOp := { pop1 with
      nfds := pop1.nfds + 1
      eventSet := fun j => if j = pop1.nfds then pfd else pop1.eventSet j }
    have hfd : pfd.fd = fd := PollFd.enable_fd _ _
    have hpush := h1.index.push (e := pfd) (hfd.symm ▸ hpos)
      (fun j hj => show pop'.eventSet j = _ from if_neg (by omega)) (if_pos rfl)
      fun x => show (if x = fd then pop1.nfds + 1 else pos x) = _ by rw [hfd]
    rw [hfd] at hpush
    refine ⟨pop', pop1.nfds + 1, ?_, h1.change hpush.1 ?_ hpush.2 hfree rfl h1.moved⟩
    · simp only [ne_eq, not_true_eq_false, if_false, PollOp.entry_eq hfree]
      have hstore : ({ pop1 with nfds := pop1.nfds + 1 } : PollOp).setEntry pop1.nfds pfd =
          .ok pop' := if_pos hfree
      show (PollOp.setEntry _ pop1.nfds pfd >>= _) = _
      rw [hstore]
      rfl
    · rw [hwanted, Option.map_some, PollFd.enable_events hi, Interest.poll_or, hnone]
  | succ k =>
    obtain ⟨hk, hkey⟩ := h1.index.found fd k hpos
    let pfd : PollFd := (pop1.eventSet k).enable events
    let pop' : PollOp := { pop1 with
      eventSet := fun j => if j = k then pfd else pop1.eventSet j }
    have hset := h1.index.set hpos (e := pfd) ((PollFd.enable_fd _ _).trans hkey)
      fun j _ => show pop'.eventSet j = if j = k then pfd else pop1.eventSet j from rfl
    have hkcount : k < pop1.eventCount := by omega
    have hold : (pop1.eventSet k).events = (want fd).poll := by
      have hpolled := h1.interest fd
      rw [lookup_of_pos hpos, Interest.polled] at hpolled
      split at hpolled
      · cases hpolled
      · exact Option.some.inj hpolled
    rw [hpos] at hsame
    refine ⟨pop', k + 1, ?_, ?_⟩
    · simp only [ne_eq, Nat.add_one_ne_zero, not_false_eq_true, if_true, Nat.add_sub_cancel,
        PollOp.entry_eq hkcount]
      show (PollOp.setEntry pop1 k pfd >>= _) = _
      rw [PollOp.setEntry_eq hkcount]
      rfl
    · rw [hsame]
      refine h1.change hset.1 ?_ hset.2 h1.room rfl h1.moved
      rw [hwanted, Option.map_some, PollFd.enable_events hi, Interest.poll_or, hold]

end

/-- The end of `poll_del`. The assertions hold when the last entry is of another fd, whose `pollidx`
has its position. -/
theorem PollOp.dropEntry_spec {fdinfo : Nat → Option Nat} {fd k n : Nat} (hn : pop.nfds = n + 1)
    (hroom : pop.nfds ≤ pop.eventCount) (hk : k ≤ n) (hmoved : pop.moved = none)
    (hlast : k ≠ n → (pop.eventSet n).fd ≠ fd ∧ fdinfo (pop.eventSet n).fd = some (n + 1)) :
    ∃ pop', pop.dropEntry fdinfo fd k = .ok pop' ∧ pop'.nfds = n ∧
      (∀ j, j < n → pop'.eventSet j = if j = k then pop.eventSet n else pop.eventSet j) ∧
      pop'.moved = (if k = n then none else some ((pop.eventSet n).fd, k + 1)) ∧
      pop'.rest = pop.rest := by
  have hpred : pop.nfds - 1 = n := by omega
  rw [PollOp.dropEntry, if_neg (by omega)]
  simp only [hpred]
  by_cases hkn : k = n
  · rw [if_neg (not_not.mpr hkn), if_pos hkn]
    refine ⟨_, rfl, rfl, fun j hj => ?_, hmoved, rfl⟩
    rw [if_neg (by omega)]
  obtain ⟨hother, hinfo⟩ := hlast hkn
  have hncount : n < pop.eventCount := by omega
  have hentry : ({ pop with nfds := n } : PollOp).entry n = .ok (pop.eventSet n) := if_pos hncount
  have hstore : ({ pop with nfds := n } : PollOp).setEntry k (pop.eventSet n) = .ok { pop with
      nfds := n, eventSet := fun j => if j = k then pop.eventSet n else pop.eventSet j } :=
    if_pos (show k < pop.eventCount by omega)
  rw [if_pos hkn, if_neg hkn, hentry]
  show ∃ pop', (PollOp.setEntry _ k (pop.eventSet n) >>= _) = _ ∧ _
  rw [hstore]
  rw [if_neg hother, hinfo]
  refine ⟨_, if_neg (not_not.mpr rfl), rfl, fun j _ => rfl, rfl, rfl⟩

/-- The `pollidx` records after the write that `poll_del` leaves behind. -/
def movedPos (pos : Nat → Nat) : Option (Nat × Nat) → Nat → Nat
  | none, x => pos x
  | some (other, idx), x => if x = other then idx else pos x

/-- `PollSet`, with a write to the map that is still to be made. -/
structure PollMoved (locking : Bool) (pop : PollOp) (pos : Nat → Nat) (want : Nat → Interest) :
    Prop where
  listed : ∀ x idx, pop.moved = some (x, idx) → pos x ≠ 0
  set : PollSet locking { pop with moved := none } (movedPos pos pop.moved) want

section
variable (h : PollSet locking pop pos want)
include h

theorem PollSet.pollMoved : PollMoved locking pop pos want where
  listed := by
    intro x idx hx
    cases h.moved.symm.trans hx
  set := by
    have hkeep : ({ pop with moved := none } : PollOp) = pop := by rw [← h.moved]
    rw [hkeep, h.moved]
    exact h

/-- The entry of an fd of which nothing is wanted any more goes. The cleared entry is `pfd`. -/
theorem PollSet.drop_spec {fdinfo : Nat → Option Nat}
    (hfdinfo : ∀ x, pos x ≠ 0 → fdinfo x = some (pos x)) {fd k : Nat} (hpos : pos fd = k + 1)
    (pfd : PollFd) (hi : i.poll = 0) :
    ∃ pop', PollOp.dropEntry fdinfo
        { pop with eventSet := fun j => if j = k then pfd else pop.eventSet j } fd k = .ok pop' ∧
      PollMoved locking pop' (fun x => if x = fd then 0 else pos x)
        (fun x => if x = fd then i else want x) := by
  obtain ⟨hk, hkey⟩ := h.index.found fd k hpos
  obtain ⟨n, hn⟩ : ∃ n, pop.nfds = n + 1 := ⟨pop.nfds - 1, by omega⟩
  have hindex := h.index
  have hroom := h.room
  rw [hn] at hindex hroom
  have hposn : pos (pop.eventSet n).fd = n + 1 := hindex.listed n (by omega)
  let pop2 : PollOp := { pop with eventSet := fun j => if j = k then pfd else pop.eventSet j }
  have hsame : k ≠ n → pop2.eventSet n = pop.eventSet n := fun hkn => if_neg (Ne.symm hkn)
  have hother : k ≠ n → (pop.eventSet n).fd ≠ fd := by
    intro hkn heq
    rw [heq] at hposn
    omega
  obtain ⟨pop', hdrop, hnfds, hset, hmoved, hrest⟩ :=
    @PollOp.dropEntry_spec pop2 fdinfo fd k n hn h.room (by omega) h.moved fun hkn => by
      rw [hsame hkn]
      exact ⟨hother hkn, by rw [hfdinfo _ (by omega), hposn]⟩
  have hentry :
      ∀ j, j < n → pop'.eventSet j = if j = k then pop.eventSet n else pop.eventSet j := by
    intro j hj
    rw [hset j hj]
    split
    · exact hsame (by omega)
    · next hjk => exact if_neg hjk
  -- the record of the last entry is corrected, unless it was the one of `fd`
  have hafter : ∀ x, movedPos (fun x => if x = fd then 0 else pos x) pop'.moved x =
      if x = fd then 0 else if x = (pop.eventSet n).fd then k + 1 else pos x := by
    intro x
    rw [hmoved]
    by_cases hkn : k = n
    · rw [if_pos hkn]
      have hlast : (pop.eventSet n).fd = fd := hkn ▸ hkey
      show (if x = fd then 0 else pos x) = _
      by_cases hx : x = fd
      · rw [if_pos hx, if_pos hx]
      · rw [if_neg hx, if_neg hx, if_neg (hlast.symm ▸ hx)]
    rw [if_neg hkn, hsame hkn]
    show (if x = (pop.eventSet n).fd then k + 1 else if x = fd then 0 else pos x) = _
    by_cases hx : x = fd
    · rw [if_neg (hx ▸ Ne.symm (hother hkn)), if_pos hx, if_pos hx]
    · rw [if_neg hx, if_neg hx]
  obtain ⟨hindex', hlookup⟩ := hindex.remove hpos hentry hafter
  refine ⟨pop', hdrop, ?_, ?_⟩
  · intro x idx hx
    rw [hmoved] at hx
    split at hx
    · cases hx
    next hkn =>
    cases hx
    rw [hsame hkn, if_neg (hother hkn), hposn]
    exact Nat.succ_ne_zero n
  have hroom' : pop'.nfds ≤ pop'.eventCount := by
    have hcount : pop'.eventCount = pop.eventCount := congrArg Prod.fst hrest
    rw [hnfds, hcount]
    exact Nat.le_of_succ_le hroom
  refine h.change ?_ ?_ hlookup hroom' hrest rfl
  · show Indexed pop'.nfds pop'.eventSet PollFd.fd _
    rw [hnfds]
    exact hindex'
  · rw [Interest.polled_eq_none_iff.mpr hi]
    rfl

/-- Conditions that are wanted, some of them by poll, are registered. -/
theorem PollSet.exists_pos (hzero : i.poll ≠ 0) {fd : Nat} (hsub : i.Sub (want fd)) :
    ∃ k, pos fd = k + 1 ∧ k < pop.nfds ∧ (pop.eventSet k).fd = fd ∧
      (pop.eventSet k).events = (want fd).poll := by
  have hwant : (want fd).poll ≠ 0 := by
    intro hnone
    obtain ⟨hr, hw⟩ := (want fd).poll_eq_zero_iff.mp hnone
    refine hzero (i.poll_eq_zero_iff.mpr ⟨?_, ?_⟩)
    · rw [← Bool.not_eq_true]
      exact fun hi => by cases (hsub.read hi).symm.trans hr
    · rw [← Bool.not_eq_true]
      exact fun hi => by cases (hsub.write hi).symm.trans hw
  obtain ⟨k, hpos⟩ : ∃ k, pos fd = k + 1 :=
    Nat.exists_eq_succ_of_ne_zero fun hno => hwant ((h.pos_eq_zero_iff fd).mp hno)
  obtain ⟨hk, hkey⟩ := h.index.found fd k hpos
  have hpolled := h.interest fd
  rw [lookup_of_pos hpos, Interest.polled_of_ne hwant] at hpolled
  exact ⟨k, hpos, hk, hkey, Option.some.inj hpolled⟩

/-- `poll_del` for conditions that are wanted. -/
theorem pollDel_spec {fdinfo : Nat → Option Nat}
    (hfdinfo : ∀ x, pos x ≠ 0 → fdinfo x = some (pos x)) {fd : Nat} (hsub : i.Sub (want fd))
    (old : Nat) :
    ∃ pop' idx, pollDel fdinfo pop fd old i.ev (pos fd) = .ok (0, pop', idx) ∧
      PollMoved locking pop' (fun x => if x = fd then idx else pos x)
        (fun x => if x = fd then (want fd).diff i else want x) := by
  have hi := standsFor_ev i
  have hsame := write_self pos fd
  rw [pollDel, if_neg (by simp [hi.signal])]
  by_cases hzero : i.poll = 0
  · -- nothing that poll watches
    rw [if_pos (by simp [hi.poll_eq_zero.mpr hzero])]
    refine ⟨pop, pos fd, rfl, ?_⟩
    rw [hsame]
    refine PollSet.pollMoved (h.of_poll_eq fun x => ?_)
    split
    · next hx =>
      obtain ⟨hr, hw⟩ := i.poll_eq_zero_iff.mp hzero
      simp [Interest.diff, Interest.poll, hr, hw, hx]
    · rfl
  rw [if_neg (by simp [hi.any_of_ne hzero])]
  obtain ⟨k, hpos, hk, hkey, hold⟩ := h.exists_pos hzero hsub
  have hkcount : k < pop.eventCount := Nat.lt_of_lt_of_le hk h.room
  let pfd : PollFd := (pop.eventSet k).disable i.ev
  have hdiff : pfd.events = ((want fd).diff i).poll := by
    rw [PollFd.disable_events hi, hold, Interest.poll_diff]
  rw [hpos]
  simp only [Nat.add_sub_cancel, PollOp.entry_eq hkcount]
  show ∃ pop' idx, (PollOp.setEntry pop k pfd >>= _) = _ ∧ _
  rw [PollOp.setEntry_eq hkcount]
  show ∃ pop' idx, (if pfd.events ≠ 0 then _ else _) = _ ∧ _
  by_cases hleft : ((want fd).diff i).poll = 0
  · rw [hdiff, if_neg (not_not.mpr hleft)]
    obtain ⟨pop', hdrop, hmoved⟩ := h.drop_spec hfdinfo hpos pfd hleft
    refine ⟨pop', 0, ?_, hmoved⟩
    show (PollOp.dropEntry fdinfo _ fd k >>= _) = _
    rw [hdrop]
    rfl
  -- another event cares about the fd
  rw [hdiff, if_pos hleft]
  let pop2 : PollOp := { pop with eventSet := fun j => if j = k then pfd else pop.eventSet j }
  have hset := h.index.set hpos (e := pfd) ((PollFd.disable_fd _ _).trans hkey)
    fun j _ => show pop2.eventSet j = if j = k then pfd else pop.eventSet j from rfl
  refine ⟨pop2, k + 1, rfl, ?_⟩
  rw [← hpos, hsame]
  refine PollSet.pollMoved (h.change hset.1 ?_ hset.2 h.room rfl h.moved)
  rw [Interest.polled_of_ne hleft, Option.map_some, hdiff]

end

/-! ### Dispatching -/

theorem pollLoop_spec {set : Nat → PollFd} {nfds : Nat} (hpos : 0 < nfds) (hcount : nfds ≤ count)
    (j : Nat) : ∀ i, i < nfds →
    ∃ active, pollLoop set count nfds j i = .ok active := by
  induction j with
  | zero =>
    intro i _
    exact ⟨[], rfl⟩
  | succ j ih =>
    intro i hi
    have hnext : (if i + 1 = nfds then 0 else i + 1) < nfds := by
      split <;> omega
    obtain ⟨active, hactive⟩ := ih _ hnext
    simp only [pollLoop, if_pos (Nat.lt_of_lt_of_le hnext hcount), hactive]
    exact ⟨_, rfl⟩

theorem pollActive_spec {nfds : Nat} (set : Nat → PollFd) (hcount : nfds ≤ count)
    (start : Nat) : ∃ active, pollActive set count nfds start = .ok active := by
  rw [pollActive]
  split
  · exact ⟨[], rfl⟩
  next hne =>
  have hpos : 0 < nfds := Nat.pos_of_ne_zero hne
  exact pollLoop_spec hpos hcount nfds _ (Nat.mod_lt start hpos)

theorem pollDispatch_spec (h : PollSet locking pop pos want) :
    ∃ pop', pollDispatch locking pop = .ok pop' ∧ PollSet locking pop' pos want := by
  cases locking with
  | false =>
    refine ⟨_, rfl, { h with polling := ?_ }⟩
    intro n hn
    cases hn
    exact h.room
  | true =>
    have hmm := h.mm.alloc_fst
    have hroom := h.room
    rw [pollDispatch, if_pos rfl, if_neg (by simp [hmm])]
    cases hcopy : pop.reallocCopy with
    | false =>
      have hcopied : pop.nfds ≤ pop.copyCount := (h.copied hcopy).symm ▸ hroom
      simp only [Bool.false_eq_true, if_false, if_pos (And.intro hroom hcopied)]
      refine ⟨_, rfl, { h with polling := ?_ }⟩
      intro n hn
      cases hn
      exact hcopied
    | true =>
      -- the copy becomes as large as the array
      simp only [if_true, if_pos (And.intro hroom hroom)]
      refine ⟨_, rfl, { h with copied := fun _ => rfl, polling := ?_ }⟩
      intro n hn
      cases hn
      exact hroom

section
variable (set : Nat → PollFd) (nfds : Nat) (revents : Nat → BitVec 16) (i : Nat)

theorem pollReport_fd : (pollReport set nfds revents i).fd = (set i).fd := by
  rw [pollReport]
  split <;> rfl

theorem pollReport_events : (pollReport set nfds revents i).events = (set i).events := by
  rw [pollReport]
  split <;> rfl

end

/-- What the kernel reports is no part of the map. -/
theorem PollSet.report (h : PollSet locking pop pos want) (nfds : Nat) (revents : Nat → BitVec 16) :
    PollSet locking { pop with eventSet := pollReport pop.eventSet nfds revents } pos want := by
  refine { h with index := ⟨fun i hi => ?_, fun k i hk => ?_⟩, interest := fun fd => ?_ }
  · rw [pollReport_fd]
    exact h.index.listed i hi
  · obtain ⟨hi, hkey⟩ := h.index.found k i hk
    exact ⟨hi, (pollReport_fd _ _ _ i).trans hkey⟩
  · rw [← h.interest fd, lookup, lookup]
    cases pos fd with
    | zero => rfl
    | succ i => exact congrArg some (pollReport_events _ _ _ i)

/-- Reporting the results keeps the set of descriptors as it is. -/
theorem pollDispatched_spec (h : PollSet locking pop pos want) (revents : Option (Nat → BitVec 16))
    (start : Nat) :
    ∃ pop', pollDispatched locking revents start pop = .ok pop' ∧
      PollSet locking pop' pos want := by
  unfold pollDispatched
  cases hpolling : pop.polling with
  | none => exact ⟨pop, rfl, h⟩
  | some nfds =>
    have hdone : ∀ {pop' : PollOp}, PollSet locking pop' pos want → ∀ active,
        PollSet locking { pop' with polling := none, active := active } pos want := by
      intro pop' h' active
      exact { h' with polling := nofun }
    have hle := h.polling nfds hpolling
    cases revents with
    | none => exact ⟨_, rfl, hdone h pop.active⟩
    | some revents =>
      -- the loop stays inside the set that `poll` has worked on
      cases locking with
      | true =>
        replace hle : nfds ≤ pop.copyCount := hle
        obtain ⟨active, hactive⟩ :=
          pollActive_spec (pollReport pop.eventSetCopy nfds revents) hle start
        have hcopy : PollSet true { pop with
            eventSetCopy := pollReport pop.eventSetCopy nfds revents } pos want := { h with }
        refine ⟨_, ?_, hdone hcopy active⟩
        show (pollActive _ _ nfds start >>= _) = _
        rw [hactive]
        rfl
      | false =>
        replace hle : nfds ≤ pop.eventCount := hle
        obtain ⟨active, hactive⟩ :=
          pollActive_spec (pollReport pop.eventSet nfds revents) hle start
        refine ⟨_, ?_, hdone (h.report nfds revents) active⟩
        show (pollActive _ _ nfds start >>= _) = _
        rw [hactive]
        rfl

end

/-! ### The base -/

section
variable {locking : Bool} {evs : EvId → Event} {m : Evmap PollOp}

theorem pollops_addKeeps (m : Evmap PollOp) (mask : Nat) :
    AddKeeps (pollops m) (mask &&& EV_ET) (PollSet locking) :=
  @fun _ _ want _ h _ fd => pollAdd_spec h (standsFor_et mask _) fd (want fd).ev

/-- The write that `poll_del` has left is made. -/
theorem storeMoved_spec (h : MapOk (PollMoved locking) evs m) :
    MapOk (PollSet locking) evs (storeMoved m) ∧
    ∀ x, ((storeMoved m).io x).bare = (m.io x).bare := by
  have hset := h.backend.set
  unfold storeMoved
  cases hmoved : m.evbase.moved with
  | none =>
    have hkeep : ({ m.evbase with moved := none } : PollOp) = m.evbase := by rw [← hmoved]
    rw [hmoved, hkeep] at hset
    exact ⟨⟨h.mm, h.counts, h.bound, hset⟩, fun _ => rfl⟩
  | some p =>
    obtain ⟨other, idx⟩ := p
    let m' : Evmap PollOp := { m with
      evbase := { m.evbase with moved := none }
      entries := fun x => if x = other then (m.entries x).map fun ctx => { ctx with fdinfo := idx }
        else m.entries x }
    have hio : ∀ x, m'.io x = if x = other then { m.io x with fdinfo := idx } else m.io x := by
      intro x
      show Option.getD (if x = other then _ else _) _ = _
      by_cases hx : x = other
      · -- the record is there: it is not zero
        have hinfo := h.backend.listed other idx hmoved
        rw [← hx, Evmap.io] at hinfo
        rw [if_pos hx, if_pos hx, Evmap.io]
        cases hentry : m.entries x with
        | none =>
          rw [hentry] at hinfo
          exact absurd rfl hinfo
        | some ctx => rfl
      · rw [if_neg hx, if_neg hx]
        rfl
    refine ⟨⟨h.mm, fun x => ?_, fun x hx => ?_, ?_⟩, fun x => ?_⟩
    · rw [hio]
      split
      · exact ⟨(h.counts x).nread, (h.counts x).nwrite, (h.counts x).nclose⟩
      · exact h.counts x
    · refine h.bound x ?_
      have hx' : (if x = other then (m.entries x).map fun ctx => { ctx with fdinfo := idx }
        else m.entries x).isSome := hx
      split at hx'
      · simpa using hx'
      · exact hx'
    · have hpos : (fun x => (m'.io x).fdinfo) =
          movedPos (fun x => (m.io x).fdinfo) m.evbase.moved := by
        funext x
        rw [hio, hmoved]
        show _ = if x = other then idx else (m.io x).fdinfo
        split <;> rfl
      have hwant : (fun x => (m'.io x).interest) = fun x => (m.io x).interest := by
        funext x
        rw [hio]
        split <;> rfl
      show PollSet locking m'.evbase (fun x => (m'.io x).fdinfo) fun x => (m'.io x).interest
      rw [hpos, hwant]
      exact hset
    · rw [hio]
      split <;> rfl

/-- Every legal action succeeds and keeps what the poll backend has registered. -/
theorem pollStep_spec (h : MapOk (PollSet locking) evs m) (debugMode : Bool) {a : FdAction}
    (hlegal : FdLegal locking evs m a) :
    ∃ m', pollStep debugMode locking evs m a = .ok m' ∧ MapOk (PollSet locking) evs m' ∧
      ∀ x, (m'.io x).bare = ioAfter debugMode evs (fun x => (m.io x).bare) a x := by
  cases a with
  | add ev => exact h.add (pollops_addKeeps m _) debugMode
  | del ev =>
    have hmem : 0 ≤ (evs ev).evFd → ev ∈ (m.io (evs ev).evFd.toNat).events := by
      rw [← Evmap.ioEvents_eq]
      exact hlegal.1
    have hinfo : ∀ x, (m.io x).fdinfo ≠ 0 →
        (m.entries x).map (·.fdinfo) = some (m.io x).fdinfo := by
      intro x hx
      rw [Evmap.io] at hx ⊢
      cases hentry : m.entries x with
      | none =>
        rw [hentry] at hx
        exact absurd rfl hx
      | some ctx => rfl
    obtain ⟨m1, heq, h1, hbare⟩ := h.del (C := PollMoved locking) (pollops m) debugMode hmem
      (fun hset => hset.pollMoved)
      @fun _ fd _ hsub => pollDel_spec h.backend hinfo hsub (m.io fd).interest.ev
    obtain ⟨h', hbare'⟩ := storeMoved_spec h1
    refine ⟨storeMoved m1, ?_, h', fun x => (hbare' x).trans (hbare x)⟩
    rw [pollStep, pollIoDel]
    cases hdel : evmapIoDel (pollops m) evs m (evs ev).evFd ev with
    | error e =>
      rw [hdel] at heq
      cases heq
    | ok p =>
      rw [hdel] at heq
      cases heq
      rfl
  | dispatch =>
    obtain ⟨pop, heq, hset⟩ := pollDispatch_spec h.backend
    refine ⟨{ m with evbase := pop }, ?_, ⟨h.mm, h.counts, h.bound, hset⟩, fun _ => rfl⟩
    rw [pollStep, heq]
    rfl
  | dispatched start revents ready =>
    obtain ⟨pop, heq, hset⟩ := pollDispatched_spec h.backend revents start
    refine ⟨{ m with evbase := pop }, ?_, ⟨h.mm, h.counts, h.bound, hset⟩, fun _ => rfl⟩
    rw [pollStep, heq]
    rfl

end

end Libevent
