import Libevent.Bufferevent.Types

/-!
# `Libevent.Bufferevent.Core`: enabling, suspending and watermarks

The functions of `bufferevent.c`, with the operations `be_socket_enable`, `be_socket_disable` and
`be_socket_setfd` of socket bufferevents (`bufferevent_sock.c`), and what happens when the user
changes one of the two evbuffers. `event_del` has no way to fail here.
-/

namespace Libevent

variable (bev : Bufferevent)

/-! ### Events -/

/-- `bufferevent_add_event_` for `ev_read` or `ev_write`: whether it succeeds. An event that could
not be added is as pending as before. -/
def buffereventAddEvent (d : Dir) : Bool × Bufferevent :=
  if bev.mm.alloc.1 then
    (true, { bev with pending := Function.update bev.pending d true, mm := bev.mm.alloc.2 })
  else (false, { bev with mm := bev.mm.alloc.2 })

/-- `event_del` of `ev_read` or `ev_write`. -/
def Bufferevent.eventDel (d : Dir) : Bufferevent :=
  { bev with pending := Function.update bev.pending d false }

/-- `be_socket_enable`. -/
def beSocketEnable (event : IoMask) : Bool × Bufferevent :=
  let (ok, bev) := if event .read then buffereventAddEvent bev .read else (true, bev)
  if !ok then (false, bev)
  else if event .write then buffereventAddEvent bev .write
  else (true, bev)

/-- `be_socket_disable`, when the bufferevent is not connecting. -/
def beSocketDisable (event : IoMask) : Bufferevent :=
  let bev := if event .read then bev.eventDel .read else bev
  if event .write then bev.eventDel .write else bev

/-! ### Suspending -/

/-- `bufferevent_suspend_read_` and `bufferevent_suspend_write_`. -/
def buffereventSuspend (d : Dir) (bev : Bufferevent) (what : SuspendFlags) : Bufferevent :=
  let bev := if bev.suspended d = ∅ then beSocketDisable bev (IoMask.only d) else bev
  { bev with suspended := Function.update bev.suspended d (bev.suspended d ∪ what) }

/-- `bufferevent_unsuspend_read_` and `bufferevent_unsuspend_write_`. -/
def buffereventUnsuspend (d : Dir) (bev : Bufferevent) (what : SuspendFlags) : Bufferevent :=
  let bev := { bev with suspended := Function.update bev.suspended d (bev.suspended d \ what) }
  if bev.suspended d = ∅ ∧ bev.enabled d = true then (beSocketEnable bev (IoMask.only d)).2
  else bev

/-- `bufferevent_suspend_read_`. -/
def buffereventSuspendRead : Bufferevent → SuspendFlags → Bufferevent := buffereventSuspend .read

/-- `bufferevent_suspend_write_`. -/
def buffereventSuspendWrite : Bufferevent → SuspendFlags → Bufferevent := buffereventSuspend .write

/-- `bufferevent_unsuspend_read_`. -/
def buffereventUnsuspendRead : Bufferevent → SuspendFlags → Bufferevent :=
  buffereventUnsuspend .read

/-- `bufferevent_unsuspend_write_`. -/
def buffereventUnsuspendWrite : Bufferevent → SuspendFlags → Bufferevent :=
  buffereventUnsuspend .write

/-- `bufferevent_wm_suspend_read`. -/
def buffereventWmSuspendRead : Bufferevent := buffereventSuspendRead bev {.wm}

/-- `bufferevent_wm_unsuspend_read`. -/
def buffereventWmUnsuspendRead : Bufferevent :=
  buffereventUnsuspendRead bev {.wm}

/-! ### Enabling -/

/-- `bufferevent_enable`. -/
def buffereventEnable (event : IoMask) : Int × Bufferevent :=
  let implEvents : IoMask := fun d => event d && decide (bev.suspended d = ∅)
  let bev := { bev with enabled := fun d => bev.enabled d || event d }
  if implEvents .read || implEvents .write then
    let (ok, bev) := beSocketEnable bev implEvents
    (if ok then 0 else -1, bev)
  else (0, bev)

/-- `bufferevent_disable`. -/
def buffereventDisable (event : IoMask) : Bufferevent :=
  beSocketDisable { bev with enabled := fun d => bev.enabled d && !event d } event

/-- `be_socket_setfd`, with a valid fd. -/
def beSocketSetfd : Bufferevent :=
  let bev := { (bev.eventDel .read).eventDel .write with
    inputFrozen := false, outputFrozen := false }
  (buffereventEnable bev bev.enabled).2

/-! ### Watermarks -/

/-- `bufferevent_inbuf_wm_cb`. -/
def buffereventInbufWmCb : Bufferevent :=
  if bev.input ≥ bev.wmReadHigh then buffereventWmSuspendRead bev
  else buffereventWmUnsuspendRead bev

/-- The input gets another length: the callbacks on it run. -/
def Bufferevent.setInput (len : Nat) : Bufferevent :=
  let changed := bev.input ≠ len
  let bev := { bev with input := len }
  if changed ∧ bev.wmCb = some true then buffereventInbufWmCb bev else bev

/-- `bufferevent_setwatermark`. The low marks and those for writing only decide which of the
user's callbacks run. When `evbuffer_add_cb` fails, its result is used all the same. -/
def buffereventSetwatermark (events : IoMask) (highmark : Nat) : Except BevFault Bufferevent :=
  if events .read then
    let bev := { bev with wmReadHigh := highmark }
    if highmark ≠ 0 then
      let (added, bev) := match bev.wmCb with
        | some _ => (true, bev)
        | none => (bev.mm.alloc.1, { bev with mm := bev.mm.alloc.2 })
      if !added then .error .nullDeref
      else
        let bev := { bev with wmCb := some true }
        .ok (if bev.input ≥ highmark then buffereventWmSuspendRead bev
          else buffereventWmUnsuspendRead bev)
    else
      let bev := { bev with wmCb := bev.wmCb.map fun _ => false }
      .ok (buffereventWmUnsuspendRead bev)
  else .ok bev

/-! ### The user's changes to the evbuffers -/

/-- The user adds `n` bytes to the input. -/
def Bufferevent.addInput (n : Nat) : Bufferevent :=
  if bev.inputFrozen then bev else bev.setInput (bev.input + n)

/-- The user removes up to `n` bytes from the input. -/
def Bufferevent.removeInput (n : Nat) : Bufferevent :=
  bev.setInput (bev.input - n)

/-- `bufferevent_socket_outbuf_cb`. -/
def buffereventSocketOutbufCb (nAdded : Nat) : Bufferevent :=
  if nAdded ≠ 0 ∧ bev.enabled .write = true ∧ bev.pending .write = false ∧
      bev.suspended .write = ∅ then
    (buffereventAddEvent bev .write).2
  else bev

/-- The user adds to the output, which has the chains `chains` then. -/
def Bufferevent.addOutput (chains : List OutChain) : Bufferevent :=
  buffereventSocketOutbufCb { bev with output := chains } (outLen chains - outLen bev.output)

/-- The user removes from the output, which has the chains `chains` then. -/
def Bufferevent.removeOutput (chains : List OutChain) : Bufferevent :=
  if bev.outputFrozen then bev else { bev with output := chains }

end Libevent
