import Libevent.Buffer.Types
import Libevent.Lib.Run

/-!
# `Libevent.Buffer.Callbacks`: the callbacks and the lock of an evbuffer

`evbuffer_run_callbacks`, `evbuffer_invoke_callbacks_` and `evbuffer_deferred_callback`, and the
frame that all the functions share that change a buffer: they take the lock, work on the chains,
count the bytes, tell the callbacks and release the lock (`evbufferChange`). An operation on two
buffers, such as `evbuffer_add_buffer`, is one change of each.

A callback can change the buffer itself, so that the functions call each other; the model has fuel
for that. The counters do not wrap around. Left out are the callbacks with the obsolete signature,
which are told two sizes only, and changes of the list of callbacks.
-/

namespace Libevent

/-- The flags of a `struct evbuffer_cb_entry`. -/
structure CbEntry where
  enabled : Bool := true
  nodefer : Bool := false
  deriving DecidableEq, Repr

/-- `struct evbuffer_cb_info`. -/
structure CbInfo where
  origSize : Nat
  nAdded : Nat
  nDeleted : Nat
  deriving DecidableEq, Repr

/-- What the history of a buffer consists of: bytes are added and removed, and the callback number
`cb` is called. -/
inductive Happening where
  | changed (added deleted : Nat)
  | told (cb : Nat) (info : CbInfo)
  deriving DecidableEq, Repr

/-- `struct evbuffer`. `deferredScheduled` says whether `deferred` is in a queue of the event base,
`lock` is the recursion depth of the lock, and `held` whether it was held each time that
`evbuffer_run_callbacks` ran. `parentRefcnt` is the number of references to `parent`. -/
structure Evbuffer where
  store : Store := {}
  callbacks : List CbEntry := []
  nAddForCb : Nat := 0
  nDelForCb : Nat := 0
  deferredCbs : Bool := false
  deferredScheduled : Bool := false
  lock : Int := 0
  held : Bool := true
  refcnt : Nat := 1
  parentRefcnt : Option Nat := none
  history : List Happening := []

/-- An operation on the chains of a buffer. It counts what it does to their length. -/
structure Work where
  run : Store → Except Fault Change
  counts : ∀ buf c, run buf = .ok c → c.store.totalLen + c.deleted = buf.totalLen + c.added

/-- `n_add_for_cb = n_del_for_cb = 0`. -/
def Evbuffer.clearCounters (buf : Evbuffer) : Evbuffer :=
  { buf with nAddForCb := 0, nDelForCb := 0 }

/-- The buffer after the lock was taken and the chains were changed. -/
def Evbuffer.changed (buf : Evbuffer) (c : Change) : Evbuffer :=
  { buf with
      store := c.store
      lock := buf.lock + 1
      nAddForCb := buf.nAddForCb + c.added
      nDelForCb := buf.nDelForCb + c.deleted
      history := buf.history ++ [.changed c.added c.deleted] }

/-- Whether `evbuffer_run_callbacks` calls the callback. -/
def CbEntry.called (e : CbEntry) (runningDeferred deferredCbs : Bool) : Bool :=
  e.enabled && if runningDeferred then !e.nodefer else if deferredCbs then e.nodefer else true

/-- The numbers of the callbacks that are called. -/
def Evbuffer.called (buf : Evbuffer) (runningDeferred : Bool) : List Nat :=
  (List.range buf.callbacks.length).filter fun i =>
    buf.callbacks[i]?.any (CbEntry.called · runningDeferred buf.deferredCbs)

end Libevent
