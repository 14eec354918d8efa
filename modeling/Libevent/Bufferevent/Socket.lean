import Libevent.Bufferevent.Group

/-!
# `Libevent.Bufferevent.Socket`: the callbacks of socket bufferevents

`bufferevent_readcb` and `bufferevent_writecb` of `bufferevent_sock.c`, with the parts of
`evbuffer_read` and `evbuffer_write_atmost` that decide how many bytes a system call is asked for.
What the system calls return is given by an `IoEnv`. The callbacks return what they report to the
user, next to the new state. `BevAction` are the calls that a program and the event loop make.
-/

namespace Libevent

variable (s : BevSystem)

/-! ### System calls -/

/-- The classes of `errno` that the callbacks tell apart: `EVUTIL_ERR_RW_RETRIABLE`,
`EVUTIL_ERR_CONNECT_REFUSED` and the others. -/
inductive IoErrno where
  | retriable
  | refused
  | other
  deriving DecidableEq, Repr

/-- What `readv`, `writev` or `sendfile` returns. -/
inductive SysResult where
  | ok (n : Nat)
  | fail (e : IoErrno)
  deriving DecidableEq, Repr

/-- What a callback depends on: whether it runs because of a timeout, what `FIONREAD` says, whether
`evbuffer_expand_fast_` gets its memory, what the system call returns, the value of `errno` when
no system call was made, and the walk over a group. -/
structure IoEnv where
  timeout : Bool := false
  readable : Int := 0
  expands : Bool := true
  result : SysResult := .fail .retriable
  errno : IoErrno := .retriable
  walk : Walk := ⟨fun _ => true, 0⟩

/-- `BEV_EVENT_EOF`, `BEV_EVENT_ERROR` or `BEV_EVENT_TIMEOUT`. -/
inductive What where
  | eof
  | error
  | timeout
  deriving DecidableEq, Repr

/-- What a callback reports to the user, how many bytes it asked a system call for, if it made one,
and how many bytes were transferred. -/
structure IoOutcome where
  what : Option What := none
  asked : Option Nat := none
  moved : Nat := 0
  deriving DecidableEq, Repr

/-- The result of `evbuffer_read` or `evbuffer_write_atmost`, `none` for -1, and the `errno` that
belongs to it. -/
structure IoResult where
  res : Option Nat
  errno : IoErrno
  asked : Option Nat
  deriving DecidableEq, Repr

/-- `(int)n`. -/
def intOfSsize (n : Int) : Int := n.bmod (2 ^ 32)

/-- `evbuffer_read`. -/
def evbufferReadSome (howmuch : Int) (env : IoEnv) : IoResult :=
  let n := if env.readable ≤ 0 ∨ env.readable > EVBUFFER_MAX_READ then EVBUFFER_MAX_READ
    else env.readable.toNat
  let howmuch := if howmuch < 0 ∨ howmuch > n then n else howmuch.toNat
  if !env.expands then ⟨none, env.errno, none⟩
  else
    match env.result with
    | .ok k => ⟨some k, env.errno, some howmuch⟩
    | .fail e => ⟨none, e, some howmuch⟩

def NUM_WRITE_IOVEC : Nat := 128

/-- The loop of `evbuffer_write_iovec`: how many vectors there are, and how many bytes in them. -/
def iovecLoop : (i howmuch : Nat) → List OutChain → Nat × Nat
  | i, _, [] => (i, 0)
  | i, howmuch, c :: l =>
    if i < NUM_WRITE_IOVEC ∧ howmuch ≠ 0 ∧ c.sendfile = false then
      if howmuch ≥ c.off then
        let (n, len) := iovecLoop (i + 1) (howmuch - c.off) l
        (n, c.off + len)
      else (i + 1, howmuch)
    else (i, 0)

/-- `evbuffer_write_iovec`. -/
def evbufferWriteIovec (output : List OutChain) (howmuch : Nat) (env : IoEnv) : IoResult :=
  let (n, len) := iovecLoop 0 howmuch output
  if n = 0 then ⟨some 0, env.errno, none⟩
  else
    match env.result with
    | .ok k => ⟨some k, env.errno, some len⟩
    | .fail e => ⟨none, e, some len⟩

/-- `evbuffer_write_sendfile`, for Linux. -/
def evbufferWriteSendfile (chain : OutChain) (env : IoEnv) : IoResult :=
  match env.result with
  | .ok k => ⟨some k, env.errno, some chain.off⟩
  | .fail .retriable => ⟨some 0, .retriable, some chain.off⟩
  | .fail e => ⟨none, e, some chain.off⟩

/-- `evbuffer_write_atmost`, before the drain. -/
def evbufferWriteAtmost (output : List OutChain) (howmuch : Int) (env : IoEnv) : IoResult :=
  let howmuch := if howmuch < 0 ∨ howmuch > outLen output then outLen output else howmuch.toNat
  if howmuch > 0 then
    match output with
    | [] => evbufferWriteIovec [] howmuch env
    | chain :: l =>
      if chain.sendfile then evbufferWriteSendfile chain env
      else evbufferWriteIovec (chain :: l) howmuch env
  else ⟨none, env.errno, none⟩

/-- `evbuffer_drain` of the output. -/
def drainOutput : Nat → List OutChain → List OutChain
  | _, [] => []
  | n, c :: l => if n ≥ c.off then drainOutput (n - c.off) l else { c with off := c.off - n } :: l

/-! ### Reading -/

/-- `bufferevent_readcb`, behind `error:`. -/
def readcbError (b : BevId) (bev : Bufferevent) (outcome : IoOutcome) : IoOutcome × BevSystem :=
  (outcome, s.setBev b (buffereventDisable bev (IoMask.only .read)))

/-- `bufferevent_readcb`, once `evbuffer_read` returned. -/
def readcbFinish (b : BevId) (bev : Bufferevent) (env : IoEnv) (r : IoResult) :
    IoOutcome × BevSystem :=
  match r.res with
  | none =>
    match r.errno with
    | .retriable => ({ asked := r.asked }, s.setBev b bev)
    -- `connection_refused` is set, which matters to a bufferevent that is connecting
    | .refused => ({ asked := r.asked }, s.setBev b bev)
    | .other => readcbError s b bev { what := some .error, asked := r.asked }
  | some 0 => readcbError s b bev { what := some .eof, asked := r.asked }
  | some (n + 1) =>
    let s := s.setBev b (bev.setInput (bev.input + (n + 1)))
    ({ asked := r.asked, moved := n + 1 },
      buffereventDecrementAllBuckets .read s b (n + 1) env.walk)

/-- `bufferevent_readcb`. -/
def buffereventReadcb (b : BevId) (env : IoEnv) : Except BevFault (IoOutcome × BevSystem) :=
  let bev := s.bevs b
  let room := ssizeOf (bev.wmReadHigh - bev.input)
  if env.timeout then .ok (readcbError s b bev { what := some .timeout })
  else if bev.wmReadHigh ≠ 0 ∧ room ≤ 0 then
    -- we somehow lowered the watermark, stop reading
    .ok ({}, s.setBev b (buffereventWmSuspendRead bev))
  else do
    let howmuch := if bev.wmReadHigh ≠ 0 then room else -1
    let (readmax, bev) ← buffereventGetReadMax s.now s.groups bev
    let howmuch := if howmuch < 0 ∨ howmuch > readmax then readmax else howmuch
    if bev.suspended .read ≠ ∅ then pure ({}, s.setBev b bev)
    else
      pure (readcbFinish s b { bev with inputFrozen := true } env
        (evbufferReadSome (intOfSsize howmuch) env))

/-! ### Writing -/

/-- `bufferevent_writecb`, behind `error:`. -/
def writecbError (b : BevId) (bev : Bufferevent) (outcome : IoOutcome) : IoOutcome × BevSystem :=
  (outcome, s.setBev b (buffereventDisable bev (IoMask.only .write)))

/-- `ev_write` is deleted when the output is empty. -/
def Bufferevent.delIfDrained (bev : Bufferevent) : Bufferevent :=
  if outLen bev.output = 0 then bev.eventDel .write else bev

/-- `bufferevent_writecb`, once `evbuffer_write_atmost` returned. -/
def writecbFinish (b : BevId) (bev : Bufferevent) (env : IoEnv) (r : IoResult) :
    IoOutcome × BevSystem :=
  match r.res with
  | none =>
    match r.errno with
    | .retriable => ({ asked := r.asked }, s.setBev b bev.delIfDrained)
    | _ => writecbError s b bev { what := some .error, asked := r.asked }
  | some 0 => writecbError s b bev { what := some .eof, asked := r.asked }
  | some (n + 1) =>
    let s := s.setBev b { bev with output := drainOutput (n + 1) bev.output }
    let s := buffereventDecrementAllBuckets .write s b (n + 1) env.walk
    ({ asked := r.asked, moved := n + 1 }, s.setBev b (s.bevs b).delIfDrained)

/-- `bufferevent_writecb`, of a bufferevent that is not connecting. -/
def buffereventWritecb (b : BevId) (env : IoEnv) : Except BevFault (IoOutcome × BevSystem) :=
  let bev := s.bevs b
  if env.timeout then .ok (writecbError s b bev { what := some .timeout })
  else do
    let (atmost, bev) ← buffereventGetWriteMax s.now s.groups bev
    if bev.suspended .write ≠ ∅ then pure ({}, s.setBev b bev)
    else if outLen bev.output ≠ 0 then
      pure (writecbFinish s b { bev with outputFrozen := true } env
        (evbufferWriteAtmost bev.output atmost env))
    else pure ({}, s.setBev b bev.delIfDrained)

/-! ### Programs -/

/-- The calls that the program and the event loop make. `elapse` is the time that passes. -/
inductive BevAction where
  | enable (b : BevId) (event : IoMask)
  | disable (b : BevId) (event : IoMask)
  | suspend (b : BevId) (d : Dir) (what : SuspendFlags)
  | unsuspend (b : BevId) (d : Dir) (what : SuspendFlags)
  | setwatermark (b : BevId) (events : IoMask) (highmark : Nat)
  | addInput (b : BevId) (n : Nat)
  | removeInput (b : BevId) (n : Nat)
  | addOutput (b : BevId) (chains : List OutChain)
  | removeOutput (b : BevId) (chains : List OutChain)
  | setfd (b : BevId)
  | readcb (b : BevId) (env : IoEnv)
  | writecb (b : BevId) (env : IoEnv)
  | setMaxSingle (b : BevId) (d : Dir) (size : Nat)
  | setRateLimit (b : BevId) (cfg : Option TokenBucketCfg)
  | decrementLimit (b : BevId) (d : Dir) (decr : Int)
  | getLimit (b : BevId) (d : Dir)
  | getMax (b : BevId) (d : Dir)
  | refill (b : BevId)
  | joinGroup (b : BevId) (g : GroupId)
  | leaveGroup (b : BevId)
  | decrementGroup (g : GroupId) (d : Dir) (decr : Int) (walk : Walk)
  | refillGroup (g : GroupId) (walkRead walkWrite : Walk)
  | setGroupCfg (g : GroupId) (cfg : TokenBucketCfg)
  | setMinShare (g : GroupId) (share : Nat)
  | elapse (msec : Nat)

/-- A call that changes one bufferevent. -/
def BevSystem.onBev (b : BevId) (f : Bufferevent → Bufferevent) : BevSystem :=
  s.setBev b (f (s.bevs b))

/-- A call that changes one bufferevent and can fault. -/
def BevSystem.tryBev {α : Type} (s : BevSystem) (b : BevId)
    (r : Except BevFault (α × Bufferevent)) :
    Except BevFault BevSystem :=
  r.map fun r => s.setBev b r.2

/-- One call. -/
def bevStep : BevAction → Except BevFault BevSystem
  | .enable b event => .ok (s.onBev b fun bev => (buffereventEnable bev event).2)
  | .disable b event => .ok (s.onBev b fun bev => buffereventDisable bev event)
  | .suspend b d what => .ok (s.onBev b fun bev => buffereventSuspend d bev what)
  | .unsuspend b d what => .ok (s.onBev b fun bev => buffereventUnsuspend d bev what)
  | .setwatermark b events highmark =>
    (buffereventSetwatermark (s.bevs b) events highmark).map (s.setBev b)
  | .addInput b n => .ok (s.onBev b fun bev => bev.addInput n)
  | .removeInput b n => .ok (s.onBev b fun bev => bev.removeInput n)
  | .addOutput b chains => .ok (s.onBev b fun bev => bev.addOutput chains)
  | .removeOutput b chains => .ok (s.onBev b fun bev => bev.removeOutput chains)
  | .setfd b => .ok (s.onBev b beSocketSetfd)
  | .readcb b env => (buffereventReadcb s b env).map Prod.snd
  | .writecb b env => (buffereventWritecb s b env).map Prod.snd
  | .setMaxSingle b d size => .ok (s.onBev b fun bev => buffereventSetMaxSingle d bev size)
  | .setRateLimit b cfg => s.tryBev b (buffereventSetRateLimit s.now (s.bevs b) cfg)
  | .decrementLimit b d decr => s.tryBev b (buffereventDecrementLimit d (s.bevs b) decr)
  | .getLimit b d => s.tryBev b (buffereventGetLimit d s.now (s.bevs b))
  | .getMax b d => s.tryBev b (buffereventGetRlimMax d s.now s.groups (s.bevs b))
  | .refill b => (bevRefillCallback s.now (s.bevs b)).map (s.setBev b)
  | .joinGroup b g => .ok (buffereventAddToRateLimitGroup s b g)
  | .leaveGroup b => .ok (buffereventRemoveFromRateLimitGroup s b true)
  | .decrementGroup g d decr walk => .ok (buffereventRateLimitGroupDecrement d s g decr walk)
  | .refillGroup g walkRead walkWrite => bevGroupRefillCallback s g walkRead walkWrite
  | .setGroupCfg g cfg => .ok (s.setGroup g (buffereventRateLimitGroupSetCfg (s.groups g) cfg))
  | .setMinShare g share =>
    .ok (s.setGroup g (buffereventRateLimitGroupSetMinShare (s.groups g) share).2)
  | .elapse msec => .ok { s with now := s.now + msec }

end Libevent
