import Libevent.Basic

/-!
# `Libevent.Epoll.OpTable`: the table behind `epoll_apply_one_change`

`epolltable-internal.h`. The index of a change puts together its close, read and write change
(two bits each) and the old events (three bits). Below, the entries for one change of write stand
together: the four changes of read (0, add, del, xxx) and for each of them the four of close.
-/

namespace Libevent

def EPOLLIN : Nat := 0x001
def EPOLLOUT : Nat := 0x004
def EPOLLRDHUP : Nat := 0x2000
def EPOLLET : Nat := 0x80000000

def EPOLL_CTL_ADD : Nat := 1
def EPOLL_CTL_DEL : Nat := 2
def EPOLL_CTL_MOD : Nat := 3

/-- `struct operation`. -/
structure Operation where
  events : Nat
  op : Nat
  deriving DecidableEq, Repr

namespace OpTable

abbrev r : Nat := EPOLLIN
abbrev w : Nat := EPOLLOUT
abbrev c : Nat := EPOLLRDHUP
abbrev rw : Nat := EPOLLIN ||| EPOLLOUT
abbrev rc : Nat := EPOLLIN ||| EPOLLRDHUP
abbrev wc : Nat := EPOLLOUT ||| EPOLLRDHUP
abbrev rwc : Nat := EPOLLIN ||| EPOLLOUT ||| EPOLLRDHUP

abbrev nop : Operation := ⟨0, 0⟩
abbrev add (events : Nat) : Operation := ⟨events, EPOLL_CTL_ADD⟩
abbrev del (events : Nat) : Operation := ⟨events, EPOLL_CTL_DEL⟩
abbrev mod (events : Nat) : Operation := ⟨events, EPOLL_CTL_MOD⟩

/-- An entry that cannot occur. -/
abbrev xxx : Operation := ⟨0, 255⟩

end OpTable

open OpTable in
/-- `epoll_op_table`. -/
def epollOpTable : List Operation := [
  -- old=0, write:0
  nop, add c, del c, xxx, add r, add rc, add r, xxx, del r, add c, del rc, xxx, xxx, xxx, xxx, xxx,
  -- old=0, write:add
  add w, add wc, add w, xxx, add rw, add rwc, add rw, xxx,
  add w, add wc, add w, xxx, xxx, xxx, xxx, xxx,
  -- old=0, write:del
  del w, add c, del wc, xxx, add r, add rc, add r, xxx,
  del rw, add c, del rwc, xxx, xxx, xxx, xxx, xxx,
  -- old=0, write:xxx
  xxx, xxx, xxx, xxx, xxx, xxx, xxx, xxx, xxx, xxx, xxx, xxx, xxx, xxx, xxx, xxx,
  -- old=r, write:0
  nop, mod rc, mod r, xxx, mod r, mod rc, mod r, xxx,
  del r, mod c, del rc, xxx, xxx, xxx, xxx, xxx,
  -- old=r, write:add
  mod rw, mod rwc, mod rw, xxx, mod rw, mod rwc, mod rw, xxx,
  mod w, mod wc, mod w, xxx, xxx, xxx, xxx, xxx,
  -- old=r, write:del
  mod r, mod rc, mod r, xxx, mod r, mod rc, mod r, xxx,
  del rw, mod c, del rwc, xxx, xxx, xxx, xxx, xxx,
  -- old=r, write:xxx
  xxx, xxx, xxx, xxx, xxx, xxx, xxx, xxx, xxx, xxx, xxx, xxx, xxx, xxx, xxx, xxx,
  -- old=w, write:0
  nop, mod wc, mod w, xxx, mod rw, mod rwc, mod rw, xxx,
  mod w, mod wc, mod w, xxx, xxx, xxx, xxx, xxx,
  -- old=w, write:add
  mod w, mod wc, mod w, xxx, mod rw, mod rwc, mod rw, xxx,
  mod w, mod wc, mod w, xxx, xxx, xxx, xxx, xxx,
  -- old=w, write:del
  del w, mod c, del wc, xxx, mod r, mod rc, mod r, xxx,
  del rw, mod c, del rwc, xxx, xxx, xxx, xxx, xxx,
  -- old=w, write:xxx
  xxx, xxx, xxx, xxx, xxx, xxx, xxx, xxx, xxx, xxx, xxx, xxx, xxx, xxx, xxx, xxx,
  -- old=rw, write:0
  nop, mod rwc, mod rw, xxx, mod rw, mod rwc, mod rw, xxx,
  mod w, mod wc, mod w, xxx, xxx, xxx, xxx, xxx,
  -- old=rw, write:add
  mod rw, mod rwc, mod rw, xxx, mod rw, mod rwc, mod rw, xxx,
  mod w, mod wc, mod w, xxx, xxx, xxx, xxx, xxx,
  -- old=rw, write:del
  mod r, mod rc, mod r, xxx, mod r, mod rc, mod r, xxx,
  del rw, mod c, del rwc, xxx, xxx, xxx, xxx, xxx,
  -- old=rw, write:xxx
  xxx, xxx, xxx, xxx, xxx, xxx, xxx, xxx, xxx, xxx, xxx, xxx, xxx, xxx, xxx, xxx,
  -- old=c, write:0
  nop, mod c, del c, xxx, mod rc, mod rc, mod r, xxx,
  mod c, mod c, del rc, xxx, xxx, xxx, xxx, xxx,
  -- old=c, write:add
  mod wc, mod wc, mod w, xxx, mod rwc, mod rwc, mod rw, xxx,
  mod wc, mod wc, mod w, xxx, xxx, xxx, xxx, xxx,
  -- old=c, write:del
  mod c, mod c, del wc, xxx, mod rc, mod rc, mod r, xxx,
  mod c, mod c, del rwc, xxx, xxx, xxx, xxx, xxx,
  -- old=c, write:xxx
  xxx, xxx, xxx, xxx, xxx, xxx, xxx, xxx, xxx, xxx, xxx, xxx, xxx, xxx, xxx, xxx,
  -- old=cr, write:0
  nop, mod rc, mod r, xxx, mod rc, mod rc, mod r, xxx,
  mod c, mod c, del rc, xxx, xxx, xxx, xxx, xxx,
  -- old=cr, write:add
  mod rwc, mod rwc, mod rw, xxx, mod rwc, mod rwc, mod rw, xxx,
  mod wc, mod wc, mod w, xxx, xxx, xxx, xxx, xxx,
  -- old=cr, write:del
  mod rc, mod rc, mod r, xxx, mod rc, mod rc, mod r, xxx,
  mod c, mod c, del rwc, xxx, xxx, xxx, xxx, xxx,
  -- old=cr, write:xxx
  xxx, xxx, xxx, xxx, xxx, xxx, xxx, xxx, xxx, xxx, xxx, xxx, xxx, xxx, xxx, xxx,
  -- old=cw, write:0
  nop, mod wc, mod w, xxx, mod rwc, mod rwc, mod rw, xxx,
  mod wc, mod wc, mod w, xxx, xxx, xxx, xxx, xxx,
  -- old=cw, write:add
  mod wc, mod wc, mod w, xxx, mod rwc, mod rwc, mod rw, xxx,
  mod wc, mod wc, mod w, xxx, xxx, xxx, xxx, xxx,
  -- old=cw, write:del
  mod c, mod c, del wc, xxx, mod rc, mod rc, mod r, xxx,
  mod c, mod c, del rwc, xxx, xxx, xxx, xxx, xxx,
  -- old=cw, write:xxx
  xxx, xxx, xxx, xxx, xxx, xxx, xxx, xxx, xxx, xxx, xxx, xxx, xxx, xxx, xxx, xxx,
  -- old=crw, write:0
  nop, mod rwc, mod rw, xxx, mod rwc, mod rwc, mod rw, xxx,
  mod wc, mod wc, mod w, xxx, xxx, xxx, xxx, xxx,
  -- old=crw, write:add
  mod rwc, mod rwc, mod rw, xxx, mod rwc, mod rwc, mod rw, xxx,
  mod wc, mod wc, mod w, xxx, xxx, xxx, xxx, xxx,
  -- old=crw, write:del
  mod rc, mod rc, mod r, xxx, mod rc, mod rc, mod r, xxx,
  mod c, mod c, del rwc, xxx, xxx, xxx, xxx, xxx,
  -- old=crw, write:xxx
  xxx, xxx, xxx, xxx, xxx, xxx, xxx, xxx, xxx, xxx, xxx, xxx, xxx, xxx, xxx, xxx]

end Libevent
