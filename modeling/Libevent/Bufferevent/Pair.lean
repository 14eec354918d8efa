import Libevent.Bufferevent.Types

/-!
# `Libevent.Bufferevent.Pair`: paired bufferevents

`bufferevent_pair.c`: the output of one end moves into the input of the other.

An evbuffer is the list of its bytes. Allocations succeed. `be_pair_transfer` unfreezes the ends
that it uses and freezes them again, so that freezing is left out, as are the timeouts and the
suspension by the watermark callback, which no function here reads. The callbacks of a pair are
always deferred: `reports` are those that were scheduled.
-/

namespace Libevent

/-- `evbuffer_remove_buffer`: the source and the destination afterwards. `evbuffer_add_buffer` moves
everything. -/
def evbufferRemoveBuffer (src dst : Bytes) (datlen : Nat) : Bytes × Bytes :=
  (src.drop datlen, dst ++ src.take datlen)

/-- `enum bufferevent_flush_mode`. -/
inductive FlushMode where
  | normal
  | flush
  | finished
  deriving DecidableEq, Repr

/-- A callback that was scheduled. `eof` is `BEV_EVENT_EOF`, with `BEV_EVENT_READING` and
`BEV_EVENT_WRITING`. -/
inductive Report where
  | readcb
  | writecb
  | eof (reading writing : Bool)
  deriving DecidableEq, Repr

/-- `struct bufferevent_pair`, without `partner`. `reports` are the scheduled callbacks, each with
the data that the input held then. -/
structure PairEnd where
  input : Bytes := []
  output : Bytes := []
  wmReadLow : Nat := 0
  wmReadHigh : Nat := 0
  wmWriteLow : Nat := 0
  reports : List (Report × Bytes) := []

def PairEnd.report (bev : PairEnd) (r : Report) : PairEnd :=
  { bev with reports := bev.reports ++ [(r, bev.input)] }

/-- `bufferevent_trigger_nolock_`, without options. -/
def buffereventTriggerNolock (bev : PairEnd) : Dir → PairEnd
  | .read => if bev.wmReadLow ≤ bev.input.length then bev.report .readcb else bev
  | .write => if bev.output.length ≤ bev.wmWriteLow then bev.report .writecb else bev

/-- The source and the destination afterwards. -/
def bePairTransfer (src dst : PairEnd) (ignoreWm : Bool) : PairEnd × PairEnd :=
  let dstSize := dst.input.length
  if dst.wmReadHigh ≠ 0 ∧ dst.wmReadHigh ≤ dstSize ∧ ignoreWm = false then (src, dst)
  else
    let n := if dst.wmReadHigh ≠ 0 ∧ dstSize < dst.wmReadHigh then dst.wmReadHigh - dstSize
      else src.output.length
    let r := evbufferRemoveBuffer src.output dst.input n
    (buffereventTriggerNolock { src with output := r.1 } .write,
      buffereventTriggerNolock { dst with input := r.2 } .read)

/-- The result, and both ends. -/
def bePairFlush (bev : PairEnd) (partner : Option PairEnd) (iotype : IoMask) (mode : FlushMode) :
    Int × PairEnd × Option PairEnd :=
  match partner with
  | none => (-1, bev, none)
  | some partner =>
    if mode = .normal then (0, bev, some partner)
    else
      let r := if iotype .read then bePairTransfer partner bev true else (partner, bev)
      let w := if iotype .write then bePairTransfer r.2 r.1 true else (r.2, r.1)
      (0, w.1, some (if mode = .finished then w.2.report (.eof (iotype .write) (iotype .read))
        else w.2))

end Libevent
