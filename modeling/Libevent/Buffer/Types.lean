import Libevent.Basic

/-!
# `Libevent.Buffer.Types`: the chains of an evbuffer

`struct evbuffer_chain`, the part of `struct evbuffer` that says what the buffer holds (`Store`),
and `evbuffer_drain` as far as it works on the chains (`drainChains`).

A buffer holds its chains by value, in the order of their `next` pointers, so that `first` and
`last` are the ends of the list. `last_with_datap` is a number: 0 is `&first`, and `i + 1` is
`&chain->next` of the chain number `i`. Of the memory of a chain, the model has the bytes in use.
-/

namespace Libevent

/-- The most that `evbuffer_read` takes at once. -/
def EVBUFFER_MAX_READ : Nat := 4096

/-- `struct evbuffer_chain`. `data` are the bytes from `misalign` on. Of the flags,
`EVBUFFER_MEM_PINNED_R` and `EVBUFFER_MEM_PINNED_W` are kept. -/
structure Chain where
  bufferLen : Nat
  misalign : Nat := 0
  data : Bytes := []
  pinnedR : Bool := false
  pinnedW : Bool := false
  refcnt : Nat := 1
  deriving DecidableEq, Repr

def Chain.off (c : Chain) : Nat := c.data.length

/-- The chains of a `struct evbuffer`, with the fields that describe them. -/
structure Store where
  chains : List Chain := []
  lastWithDatap : Nat := 0
  totalLen : Nat := 0
  freezeStart : Bool := false
  deriving DecidableEq, Repr

namespace Store

/-- The bytes in the buffer. -/
def content (buf : Store) : Bytes := buf.chains.flatMap Chain.data

/-- `HAS_PINNED_R`. -/
def hasPinnedR (buf : Store) : Bool := buf.chains.getLast?.any Chain.pinnedR

/-- `ZERO_CHAIN`. -/
def zeroChain (buf : Store) : Store := { buf with chains := [], lastWithDatap := 0, totalLen := 0 }

end Store

/-- What an operation does to the chains of a buffer: its result, the numbers of bytes that it adds
and removes, whether it goes on to tell the callbacks, and which chains it releases. -/
structure Change where
  result : Int := 0
  added : Nat := 0
  deleted : Nat := 0
  tells : Bool := false
  released : List Chain := []
  store : Store
  deriving DecidableEq, Repr

/-- `evbuffer_chain_free`: the chains that are released, one or none. A pinned chain is kept until
it is unpinned. What the chain refers to, the parent of a multicast chain or a file segment, is not
part of the buffer. -/
def evbufferChainFree (c : Chain) : Except Fault (List Chain) :=
  match c.refcnt with
  | 0 => .error .assertFailed
  | 1 => .ok (if c.pinnedR || c.pinnedW then [] else [c])
  | _ + 2 => .ok []

/-- The loop of `evbuffer_drain` from the chain number `i` on: what remains to be removed,
`last_with_datap`, the chains that are released, and those that stay. -/
def drainLoop : (i remaining lwd : Nat) → List Chain →
    Except Fault (Nat × Nat × List Chain × Chain × List Chain)
  | _, _, _, [] => .error .nullDeref
  | i, remaining, lwd, c :: l =>
    if remaining ≥ c.off then
      let lwd := if lwd = i then 0 else lwd
      let lwd := if lwd = i + 1 then 0 else lwd
      if c.pinnedR then
        if remaining - c.off ≠ 0 then .error .assertFailed
        else .ok (0, lwd - i, [], { c with misalign := c.misalign + c.off, data := [] }, l)
      else do
        let freed ← evbufferChainFree c
        let (remaining, lwd, released, rest) ← drainLoop (i + 1) (remaining - c.off) lwd l
        pure (remaining, lwd, freed ++ released, rest)
    else .ok (remaining, lwd - i, [], c, l)

/-- What `evbuffer_drain` does before it tells the callbacks. -/
def drainChains (len : Nat) (buf : Store) : Except Fault Change :=
  let oldLen := buf.totalLen
  if oldLen = 0 then .ok { store := buf }
  else if buf.freezeStart then .ok { result := -1, store := buf }
  else if len ≥ oldLen ∧ buf.hasPinnedR = false then do
    let released ← buf.chains.mapM evbufferChainFree
    pure { deleted := oldLen, tells := true, released := released.flatten, store := buf.zeroChain }
  else do
    let len := min len oldLen
    let (remaining, lwd, released, c, l) ← drainLoop 0 len buf.lastWithDatap buf.chains
    if remaining < c.off then
      let c := { c with misalign := c.misalign + remaining, data := c.data.drop remaining }
      let store := { buf with chains := c :: l, lastWithDatap := lwd, totalLen := oldLen - len }
      pure { deleted := len, tells := true, released, store }
    else .error .assertFailed

end Libevent
