import Libevent.Dns.ServerPort
import Libevent.Lib.Outcome

/-!
# `Libevent.Proofs.Dns.ServerPort`: the life of a server port and of its replies

`ServerPort.Open` is the invariant of a port that has not been closed: its reference count is one
for the port and one for each request. As long as it holds, `server_request_free` never releases the
port, and so no function comes to use it afterwards.

Two things go wrong in the code. `evdns_close_server_port` keeps the lock when requests are left,
and then the last of them releases a port that its caller goes on to use.
`evdns_server_request_respond` has the test of a retriable error the wrong way round. For both it is
shown exactly which runs are not affected (`portRun_ok_iff`, `repliesRun_iff`).
-/

namespace Libevent

open Lib

namespace ServerPort

variable {port : ServerPort} {sendto : Nat → SendtoResult} {E : PortFault → Prop}
  {port' : ServerPort} {action : PortAction} {id : Nat} {formats : Bool}

/-- The numbers of the requests that are allocated. -/
abbrev ids (port : ServerPort) : List Nat := port.requests.map (·.id)

/-- The invariant of a port that has not been closed. -/
structure Open (port : ServerPort) : Prop where
  released : port.released = false
  closing : port.closing = false
  count : port.refcnt = 1 + port.requests.length
  nodup : port.ids.Nodup
  fresh : ∀ req ∈ port.requests, req.id < port.next
  pending : ∀ id ∈ port.pendingReplies, id ∈ port.ids
  queued : port.pendingReplies.Nodup

/-! ### Requests -/

theorem touch_eq (h : port.released = false) : port.touch = .ok () := by
  rw [touch, h]
  rfl

/-- The port with its lock taken once more. -/
abbrev locked (port : ServerPort) : ServerPort := { port with lock := port.lock + 1 }

theorem Open.locked (h : port.Open) : port.locked.Open :=
  { h with }

theorem evdnsLock_eq (h : port.released = false) : port.evdnsLock = .ok port.locked := by
  rw [evdnsLock, touch_eq h]
  rfl

theorem evdnsUnlock_eq (h : port.released = false) :
    port.evdnsUnlock = .ok { port with lock := port.lock - 1 } := by
  rw [evdnsUnlock, touch_eq h]
  rfl

theorem find_eq_none_iff : port.find id = none ↔ id ∉ port.ids := by
  simp [find]

theorem exists_find (hid : id ∈ port.ids) : ∃ req, port.find id = some req := by
  cases hfind : port.find id with
  | some req => exact ⟨req, rfl⟩
  | none => exact absurd hid (find_eq_none_iff.mp hfind)

/-- A change of a request that keeps its number. -/
theorem modify_ids (port : ServerPort) (id : Nat) {f : ServerRequest → ServerRequest}
    (hf : ∀ req, (f req).id = req.id) :
    (port.modify id f).ids = port.ids := by
  simp only [ids, modify, List.map_map]
  refine List.map_congr_left fun req _ => ?_
  simp only [Function.comp]
  split
  · exact hf req
  · rfl

/-- Of the requests with different numbers, one is left out. -/
theorem length_filter_ne {reqs : List ServerRequest} (hnodup : (reqs.map (·.id)).Nodup)
    (hid : id ∈ reqs.map (·.id)) : (reqs.filter (·.id ≠ id)).length + 1 = reqs.length := by
  have hids : (reqs.filter (·.id ≠ id)).map (·.id) = (reqs.map (·.id)).erase id := by
    rw [hnodup.erase_eq_filter, List.filter_map]
    congr 1
    exact List.filter_congr fun req _ => by by_cases h : req.id = id <;> simp [h]
  rw [← List.length_map (·.id), hids, List.length_erase_add_one hid, List.length_map]

/-- The port stays open, and whoever holds its lock goes on to hold it. -/
def Steady (port port' : ServerPort) : Prop :=
  port'.Open ∧ port'.lock = port.lock ∧ port'.reading = port.reading

theorem Steady.trans {port'' : ServerPort} (h : Steady port port')
    (h' : Steady port' port'') : Steady port port'' :=
  ⟨h'.1, h'.2.1.trans h.2.1, h'.2.2.trans h.2.2⟩

/-- A request of an open port is released, and the port is not. -/
theorem Open.serverRequestFree_eq (h : port.Open) (hid : id ∈ port.ids) :
    ∃ port', port.serverRequestFree id = .ok (port', false) ∧ Steady port port' ∧
      port'.requests = port.requests.filter (·.id ≠ id) ∧
      port'.pendingReplies = port.pendingReplies.erase id := by
  obtain ⟨req, hfind⟩ := exists_find hid
  have hlen : (port.requests.filter (·.id ≠ id)).length + 1 = port.requests.length :=
    length_filter_ne h.nodup hid
  have hne : ¬ port.refcnt - 1 = 0 := by
    have hcount := h.count
    omega
  rw [serverRequestFree, hfind]
  rw [evdnsLock_eq h.released]
  show ∃ port', (if port.refcnt - 1 = 0 then _ else _) = _ ∧ _
  rw [if_neg hne, evdnsUnlock_eq]
  · refine ⟨_, rfl, ⟨?_, ?_, rfl⟩, rfl, rfl⟩
    · exact {
        released := h.released
        closing := h.closing
        count := by
          show port.refcnt - 1 = 1 + ((port.requests.filter (·.id ≠ id)).length : Int)
          have hcount := h.count
          omega
        nodup := h.nodup.sublist (List.filter_sublist.map _)
        fresh := fun req hreq => h.fresh req (List.mem_of_mem_filter hreq)
        pending := by
          intro x hx
          have hx' := (h.queued.mem_erase_iff).mp hx
          obtain ⟨old, hold, rfl⟩ := List.mem_map.mp (h.pending x hx'.2)
          exact List.mem_map.mpr ⟨old, List.mem_filter.mpr ⟨hold, by simpa using hx'.1⟩, rfl⟩
        queued := h.queued.erase id }
    · show port.lock + 1 - 1 = port.lock
      omega
  · exact h.released

/-! ### What keeps a port open -/

/-- Details of a request change. -/
theorem Open.touchRequest (h : port.Open) (id : Nat) {f : ServerRequest → ServerRequest}
    (hf : ∀ req, (f req).id = req.id) (sends : Nat) :
    Steady port { port.modify id f with sends := sends } := by
  have hids := modify_ids port id hf
  refine ⟨{ h with count := ?_, nodup := ?_, fresh := fun req hreq => ?_, pending := ?_ }, rfl, rfl⟩
  · simp [modify, h.count]
  · exact hids ▸ h.nodup
  · have hmem : req.id ∈ port.ids := hids ▸ List.mem_map_of_mem hreq
    obtain ⟨old, hold, heq⟩ := List.mem_map.mp hmem
    exact heq ▸ h.fresh old hold
  · exact hids ▸ h.pending

/-- The response of a request is sent, or not. -/
theorem Open.send_eq (h : port.Open) (id : Nat) :
    ∃ port', port.send sendto id = .ok (port', sendto port.sends) ∧ Steady port port' ∧
      port'.requests = (port.modify id fun req =>
        { req with lastSend := some (sendto port.sends) }).requests ∧
      port'.ids = port.ids ∧
      port'.pendingReplies = port.pendingReplies := by
  rw [send, touch_eq h.released]
  let note : ServerRequest → ServerRequest := fun req =>
    { req with lastSend := some (sendto port.sends) }
  exact ⟨_, rfl, h.touchRequest id (f := note) (fun _ => rfl) (port.sends + 1), rfl,
    modify_ids port id (f := note) fun _ => rfl, rfl⟩

/-- `server_port_flush` takes replies off the ring, and the port stays open. -/
theorem flushLoop_spec : ∀ (n : Nat) (port : ServerPort), port.Open →
    Yields E (flushLoop sendto n port) fun p => Steady port p.1 := by
  intro n
  induction n with
  | zero =>
    intro port h
    exact ⟨h, rfl, rfl⟩
  | succ n ih =>
    intro port h
    rw [flushLoop]
    split
    · exact ⟨h, rfl, rfl⟩
    next id rest hpending =>
    obtain ⟨port1, heq1, hsteady1, -, hids1, hpending1⟩ := h.send_eq id
    rw [heq1, yields_ok_bind]
    dsimp only
    split
    · exact hsteady1
    have hid : id ∈ port1.ids := by
      rw [hids1]
      exact h.pending id (hpending ▸ List.mem_cons_self)
    obtain ⟨port2, heq2, hsteady2, -, hpending2⟩ := hsteady1.1.serverRequestFree_eq hid
    rw [heq2]
    -- the ring has each reply once, so its head has moved on
    have hhead : port2.pendingReplies.head? ≠ some id := by
      rw [hpending2, hpending1, hpending, List.erase_cons_head]
      intro hhead
      have hqueued := h.queued
      rw [hpending] at hqueued
      exact (List.nodup_cons.mp hqueued).1 (List.mem_of_head? hhead)
    show Yields E (if port2.pendingReplies.head? = some id then _ else _) _
    rw [if_neg hhead]
    exact (ih port2 hsteady2.1).mono fun p hp => (hsteady1.trans hsteady2).trans hp

theorem serverPortFlush_spec (h : port.Open) :
    Yields E (port.serverPortFlush sendto) fun port' => Steady port port' := by
  rw [serverPortFlush, touch_eq h.released]
  refine (flushLoop_spec port.pendingReplies.length port h).bind ?_
  rintro ⟨port1, done⟩ hsteady
  cases done with
  | false => exact hsteady
  | true =>
    exact hsteady.trans ⟨{ hsteady.1 with }, rfl, rfl⟩

/-- The response to the request can be formatted, or has been. -/
abbrev Formatted (port : ServerPort) (id : Nat) (formats : Bool) : Prop :=
  formats = true ∨ (port.find id).any (·.response) = true

/-- `evdns_server_request_respond` up to the result of `sendto`. -/
theorem evdnsServerRequestRespond_eq (h : port.Open) (hid : id ∈ port.ids)
    (hformats : port.Formatted id formats) :
    ∃ port2, port.evdnsServerRequestRespond sendto id formats = (match sendto port.sends with
        | .retriable => port2.evdnsUnlock
        | .failed => (port2.queueReply id).evdnsUnlock
        | .sent => port2.replySent sendto id) ∧
      Steady port.locked port2 ∧
      port2.ids = port.ids ∧
      (∀ req ∈ port2.requests, (req.id = id → req.lastSend = some (sendto port.sends)) ∧
        (req.id ≠ id → req ∈ port.requests)) ∧
      port2.pendingReplies = port.pendingReplies := by
  obtain ⟨req, hfind⟩ := exists_find hid
  let format : ServerRequest → ServerRequest := fun req => { req with response := true }
  have hformatted := h.locked.touchRequest id (f := format) (fun _ => rfl) port.sends
  obtain ⟨port2, heq, hsteady, hrequests, hids, hpending⟩ := hformatted.1.send_eq id
  refine ⟨port2, ?_, hformatted.trans hsteady, ?_, fun r hr => ?_, hpending⟩
  · have hgo : ¬ ((!req.response) = true ∧ (!formats) = true) := by
      rw [Formatted, hfind] at hformats
      simpa [imp_iff_or_not, or_comm] using hformats
    rw [evdnsServerRequestRespond, hfind]
    rw [evdnsLock_eq h.released]
    show (if (!req.response) = true ∧ (!formats) = true then _ else _) = _
    rw [if_neg hgo]
    change send sendto (port.locked.modify id format) id = _ at heq
    show (send sendto (port.locked.modify id format) id >>= _) = _
    rw [heq]
    rfl
  · rw [hids]
    exact modify_ids port.locked id (f := format) fun _ => rfl
  · rw [hrequests] at hr
    simp only [modify, List.map_map, List.mem_map] at hr
    obtain ⟨old, hold, rfl⟩ := hr
    by_cases hne : old.id = id
    · simp [hne, format]
    · simpa [hne] using hold

theorem Steady.relock (h : Steady port port') :
    Steady { port with lock := port.lock - 1 } { port' with lock := port'.lock - 1 } :=
  ⟨{ h.1 with }, congrArg (· - 1) h.2.1, h.2.2⟩

/-- After a reply has been sent. -/
theorem replySent_spec (h : port.Open) (hid : id ∈ port.ids) :
    Yields E (port.replySent sendto id) fun port' =>
      Steady { port with lock := port.lock - 1 } port' ∧
      (port.pendingReplies = [] → port'.pendingReplies = [] ∧
        port'.requests = port.requests.filter (·.id ≠ id)) := by
  obtain ⟨port3, heq3, hsteady3, hrequests3, hpending3⟩ := h.serverRequestFree_eq hid
  rw [replySent, heq3, yields_ok_bind]
  dsimp only
  rw [if_neg Bool.false_ne_true]
  split
  · next hne =>
    refine (serverPortFlush_spec hsteady3.1).bind fun port4 hsteady4 => ?_
    rw [evdnsUnlock_eq hsteady4.1.released]
    refine ⟨(hsteady3.trans hsteady4).relock, fun hempty => ?_⟩
    rw [hpending3, hempty] at hne
    exact absurd rfl hne
  show Yields E port3.evdnsUnlock _
  rw [evdnsUnlock_eq hsteady3.1.released]
  refine ⟨hsteady3.relock, fun hempty => ⟨?_, hrequests3⟩⟩
  show port3.pendingReplies = []
  rw [hpending3, hempty, List.erase_nil]

theorem Open.queueReply (h : port.Open) (hid : id ∈ port.ids)
    (hpending : id ∉ port.pendingReplies) : Steady port (port.queueReply id) := by
  rw [ServerPort.queueReply]
  split
  · refine ⟨{ h with pending := fun x hx => ?_, queued := ?_ }, rfl, rfl⟩
    · rcases List.mem_append.mp hx with hx | hx
      · exact h.pending x hx
      · exact List.mem_singleton.mp hx ▸ hid
    · refine List.nodup_append.mpr ⟨h.queued, List.nodup_singleton id, fun x hx y hy heq => ?_⟩
      obtain rfl := List.mem_singleton.mp hy
      exact hpending (heq ▸ hx)
  · refine ⟨{ h with pending := fun x hx => ?_, queued := List.nodup_singleton id }, rfl, rfl⟩
    exact List.mem_singleton.mp hx ▸ hid

/-- Unlocking after locking. -/
theorem Steady.unlock (h : Steady port.locked port') :
    port'.evdnsUnlock = .ok { port' with lock := port'.lock - 1 } ∧
      Steady port { port' with lock := port'.lock - 1 } := by
  have hrelock := h.relock
  rw [Int.add_sub_cancel] at hrelock
  exact ⟨evdnsUnlock_eq h.1.released, hrelock⟩

/-- `evdns_server_request_respond` when the response cannot be formatted. -/
theorem evdnsServerRequestRespond_unformatted (h : port.Open) (hid : id ∈ port.ids)
    (hformats : ¬ port.Formatted id formats) :
    port.evdnsServerRequestRespond sendto id formats = .ok port := by
  obtain ⟨req, hfind⟩ := exists_find hid
  have hstop : (!req.response) = true ∧ (!formats) = true := by
    rw [Formatted, hfind] at hformats
    simpa [not_or, and_comm] using hformats
  have hlock : port.lock + 1 - 1 = port.lock := by omega
  rw [evdnsServerRequestRespond, hfind]
  rw [evdnsLock_eq h.released]
  show (if (!req.response) = true ∧ (!formats) = true then _ else _) = _
  rw [if_pos hstop, evdnsUnlock_eq]
  · show Except.ok { port with lock := port.lock + 1 - 1 } = _
    rw [hlock]
  · exact h.released

/-- `evdns_server_request_respond` on an open port. -/
theorem evdnsServerRequestRespond_spec (h : port.Open) (hid : id ∈ port.ids)
    (hpending : id ∉ port.pendingReplies) (formats : Bool) :
    Yields E (port.evdnsServerRequestRespond sendto id formats) fun port' => Steady port port' := by
  by_cases hformats : port.Formatted id formats
  · obtain ⟨port2, heq, hsteady, hids, -, hpending2⟩ := evdnsServerRequestRespond_eq h hid hformats
    have hid2 : id ∈ port2.ids := hids ▸ hid
    rw [heq]
    cases sendto port.sends with
    | retriable =>
      obtain ⟨heq', hdone⟩ := hsteady.unlock
      rw [heq']
      exact hdone
    | failed =>
      have hqueued := hsteady.1.queueReply hid2 (hpending2 ▸ hpending)
      obtain ⟨heq', hdone⟩ := (hsteady.trans hqueued).unlock
      rw [heq']
      exact hdone
    | sent =>
      refine (replySent_spec hsteady.1 hid2).mono fun port' hport' => ?_
      exact hsteady.unlock.2.trans hport'.1
  · rw [evdnsServerRequestRespond_unformatted h hid hformats]
    exact ⟨h, rfl, rfl⟩

theorem evdnsServerRequestDrop_spec (h : port.Open) (hid : id ∈ port.ids) :
    Yields E (port.evdnsServerRequestDrop id) fun port' => Steady port port' := by
  obtain ⟨port', heq, hsteady, -⟩ := h.serverRequestFree_eq hid
  rw [evdnsServerRequestDrop, heq]
  exact hsteady

/-- Only standard queries get past the mask, so no query is answered before the user sees it. -/
theorem requestParse_flags (flags : Nat) : flags &&& 0x0110 &&& 0x7800 = 0 := by
  rw [Nat.and_assoc]
  exact Nat.and_zero flags

/-- The port takes each request, whatever its flags: the test of the opcode never holds. -/
theorem requestParse_eq (h : port.Open) (flags : Nat) (formats : Bool) :
    ∃ port', port.requestParse sendto flags formats = .ok port' ∧ Steady port port' ∧
      port'.requests = port.requests ++ [{ id := port.next }] ∧
      port'.pendingReplies = port.pendingReplies := by
  rw [requestParse, touch_eq h.released]
  refine ⟨{ port with
    requests := port.requests ++ [{ id := port.next }]
    next := port.next + 1
    refcnt := port.refcnt + 1 }, ?_, ⟨?_, rfl, rfl⟩, rfl, rfl⟩
  · show (if flags &&& 0x0110 &&& 0x7800 ≠ 0 then _ else _) = _
    rw [if_neg (not_not_intro (requestParse_flags flags))]
    rfl
  exact {
    released := h.released
    closing := h.closing
    count := by
      show port.refcnt + 1 = 1 + ((port.requests ++ [_]).length : Int)
      have hcount := h.count
      rw [List.length_append]
      simp only [List.length_cons, List.length_nil]
      omega
    nodup := by
      rw [ids, List.map_append, List.nodup_append]
      refine ⟨h.nodup, List.nodup_singleton _, fun x hx y hy heq => ?_⟩
      obtain ⟨req, hreq, rfl⟩ := List.mem_map.mp hx
      have hy : y = port.next := by simpa using hy
      have hlt := h.fresh req hreq
      omega
    fresh := by
      intro req hreq
      show req.id < port.next + 1
      rcases List.mem_append.mp hreq with hreq | hreq
      · have hlt := h.fresh req hreq
        omega
      · obtain rfl := List.mem_singleton.mp hreq
        exact Nat.lt_succ_self _
    pending := by
      intro x hx
      rw [ids, List.map_append]
      exact List.mem_append_left _ (h.pending x hx)
    queued := h.queued }

/-- `evdns_close_server_port` when no request is left: the port is released. -/
theorem evdnsCloseServerPort_idle (h : port.Open) (hrequests : port.requests = []) :
    port.evdnsCloseServerPort = .ok { port with
      refcnt := 0, lock := port.lock, event := none, released := true } := by
  have hcount : port.refcnt = 1 := by
    rw [h.count, hrequests]
    rfl
  have hpending : port.pendingReplies = [] := by
    refine List.eq_nil_iff_forall_not_mem.mpr fun id hid => ?_
    have hmem := h.pending id hid
    rw [ids, hrequests] at hmem
    cases hmem
  rw [evdnsCloseServerPort, evdnsLock_eq h.released]
  simp [hcount, evdnsUnlock_eq, serverPortFree, touch_eq, h.released, hpending, bind,
    Except.bind, pure, Except.pure]

/-- `evdns_close_server_port` when a request is left: the lock is kept. -/
theorem evdnsCloseServerPort_busy (h : port.Open) (hrequests : port.requests ≠ []) :
    port.evdnsCloseServerPort = .ok { port with
      refcnt := port.refcnt - 1, lock := port.lock + 1, closing := true } := by
  have hcount : ¬ port.refcnt - 1 = 0 := by
    have hlen := List.length_pos_iff.mpr hrequests
    rw [h.count]
    omega
  rw [evdnsCloseServerPort, evdnsLock_eq h.released]
  show (if port.refcnt - 1 = 0 then _ else _) = _
  rw [if_neg hcount]
  rfl

/-! ### Runs -/

/-- The port is released exactly when nothing refers to it any more, its lock is held by the
callback that reads from it and by nobody else, and that callback still has it. -/
structure PortOk (port : ServerPort) : Prop where
  count : port.refcnt = (if port.closing || port.released then 0 else 1) + port.requests.length
  released : port.released = true ↔ port.refcnt = 0
  lock : port.lock = if port.reading then 1 else 0
  held : port.reading = true → port.released = false

/-- The port is open, or it has been released with nothing left. -/
def Settled (port : ServerPort) : Prop :=
  port.Open ∨ (port.released = true ∧ port.event = none ∧ port.requests = [] ∧ port.reading = false)

/-- The port is closed when nobody is using it. -/
def ClosesIdle (port : ServerPort) (action : PortAction) : Prop :=
  action = .close → port.closing = true ∨ port.released = true ∨
    (port.requests = [] ∧ port.reading = false)

theorem Open.portOk (h : port.Open) (hlock : port.lock = if port.reading then 1 else 0) :
    PortOk port where
  count := by simp [h.closing, h.released, h.count]
  released := by
    have hcount := h.count
    simp only [h.released, Bool.false_eq_true, false_iff]
    omega
  lock := hlock
  held := fun _ => h.released

/-- A step that keeps the port open and its lock. -/
theorem Steady.settled (hok : PortOk port) (h : Steady port port') :
    Settled port' ∧ PortOk port' := by
  obtain ⟨hopen, hlock, hreading⟩ := h
  refine ⟨.inl hopen, hopen.portOk ?_⟩
  rw [hlock, hreading]
  exact hok.lock

theorem owned_iff : port.owned id = true ↔ id ∈ port.ids ∧ id ∉ port.pendingReplies := by
  rw [owned, Bool.and_eq_true, Bool.not_eq_true', List.contains_eq_mem, decide_eq_false_iff_not,
    Option.isSome_iff_ne_none, ne_eq, find_eq_none_iff, not_not]

/-- `server_port_ready_callback` up to its reading. -/
theorem serverPortReady_spec (h : port.Open) (hlock : port.lock = 0)
    (hreading : port.reading = false) (write read : Bool) :
    Yields E (port.serverPortReady sendto write read) fun port' => port'.Open ∧
      port'.lock = if port'.reading then 1 else 0 := by
  rw [serverPortReady, evdnsLock_eq h.released]
  -- whether the port has been flushed or not, it is open and locked once
  have hrest : ∀ port' : ServerPort, Steady port.locked port' →
      Yields E (if read then (port'.touch >>= fun _ => pure { port' with reading := true })
        else port'.evdnsUnlock) fun port'' => port''.Open ∧
          port''.lock = if port''.reading then 1 else 0 := by
    rintro port' ⟨h', hlock', hreading'⟩
    have hone : port'.lock = 1 := by
      rw [hlock']
      show port.lock + 1 = 1
      omega
    cases read with
    | true =>
      rw [touch_eq h'.released]
      exact ⟨{ h' with }, hone⟩
    | false =>
      rw [evdnsUnlock_eq h'.released]
      refine ⟨{ h' with }, ?_⟩
      show port'.lock - 1 = if port'.reading then 1 else 0
      have hnot : port'.reading = false := hreading'.trans hreading
      rw [hnot, hone]
      rfl
  cases write with
  | true =>
    have hchoked : ({ port with lock := port.lock + 1, choked := false } : ServerPort).Open :=
      { h with }
    exact (serverPortFlush_spec hchoked).bind hrest
  | false => exact hrest _ ⟨h.locked, rfl, rfl⟩

theorem Open.portStep_close (h : port.Open) :
    portStep sendto port .close = port.evdnsCloseServerPort := by
  simp [portStep, h.closing, h.released]

/-- An action that has no occasion does nothing. -/
theorem portStep_guard {P : ServerPort → Prop} {c : Prop} [Decidable c]
    {r : Except PortFault ServerPort} (hport : P port) (hr : c → ∃ port', r = .ok port' ∧ P port') :
    ∃ port', (if c then r else .ok port) = .ok port' ∧ P port' := by
  split
  · next hc => exact hr hc
  · exact ⟨port, rfl, hport⟩

/-- No operation fails on a settled port, and the port is settled afterwards. -/
theorem portStep_good (hsettled : Settled port) (hok : PortOk port)
    (hcloses : ClosesIdle port action) :
    ∃ port', portStep sendto port action = .ok port' ∧ Settled port' ∧ PortOk port' := by
  rcases hsettled with h | ⟨hreleased, hevent, hrequests, hreading⟩
  · have hstay : Settled port ∧ PortOk port := ⟨.inl h, hok⟩
    -- most actions keep the port open
    have hsteady : ∀ {r : Except PortFault ServerPort},
        Yields (fun _ => False) r (fun port' => Steady port port') →
        ∃ port', r = .ok port' ∧ Settled port' ∧ PortOk port' := by
      intro r hr
      obtain ⟨port', heq, hport'⟩ := hr.exists_ok
      exact ⟨port', heq, hport'.settled hok⟩
    cases action with
    | ready write read =>
      refine portStep_guard hstay fun hoccasion => ?_
      have hreading : port.reading = false := by
        simp only [Bool.and_eq_true, Bool.not_eq_true'] at hoccasion
        exact hoccasion.1
      have hlock := hok.lock
      rw [hreading] at hlock
      obtain ⟨port', heq, h', hlock'⟩ :=
        (serverPortReady_spec h hlock hreading write read).exists_ok
      exact ⟨port', heq, .inl h', h'.portOk hlock'⟩
    | query flags formats =>
      refine portStep_guard hstay fun _ => ?_
      obtain ⟨port', heq, hport', -⟩ := requestParse_eq h flags formats
      exact ⟨port', heq, hport'.settled hok⟩
    | readDone =>
      refine portStep_guard hstay fun hreading => ?_
      have hlock := hok.lock
      rw [hreading] at hlock
      rw [serverPortReadDone, touch_eq h.released]
      have hdone : ({ port with reading := false, lock := port.lock - 1 } : ServerPort).Open :=
        { h with }
      refine ⟨_, evdnsUnlock_eq h.released, .inl hdone, hdone.portOk ?_⟩
      show port.lock - 1 = 0
      rw [hlock]
      rfl
    | respond id formats =>
      refine portStep_guard hstay fun howned => ?_
      obtain ⟨hid, hpending⟩ := owned_iff.mp howned
      exact hsteady (evdnsServerRequestRespond_spec h hid hpending formats)
    | drop id =>
      exact portStep_guard hstay fun howned =>
        hsteady (evdnsServerRequestDrop_spec h (owned_iff.mp howned).1)
    | close =>
      obtain ⟨hrequests, hreading⟩ : port.requests = [] ∧ port.reading = false := by
        rcases hcloses rfl with hclosing | hreleased | hidle
        · cases h.closing.symm.trans hclosing
        · cases h.released.symm.trans hreleased
        · exact hidle
      rw [h.portStep_close, evdnsCloseServerPort_idle h hrequests]
      refine ⟨_, rfl, .inr ⟨rfl, rfl, hrequests, hreading⟩, ?_⟩
      exact {
        count := by simp [hrequests]
        released := by simp
        lock := hok.lock
        held := fun hread => absurd hread (by simp [hreading]) }
  · -- nothing can happen to a port that has been released
    refine ⟨port, ?_, .inr ⟨hreleased, hevent, hrequests, hreading⟩, hok⟩
    have howned : ∀ id, port.owned id = false := by
      intro id
      simp [owned, find, hrequests]
    cases action <;> simp [portStep, hreleased, hevent, hreading, howned]

/-- Closing a port that somebody uses leaves it locked, or takes it from the callback that reads. -/
theorem portStep_bad (hsettled : Settled port) (hok : PortOk port)
    (hcloses : ¬ ClosesIdle port action)
    (hstep : portStep sendto port action = .ok port') : ¬ PortOk port' := by
  intro hok'
  simp only [ClosesIdle, Classical.not_imp, not_or] at hcloses
  obtain ⟨rfl, hclosing, hreleased, hbusy⟩ := hcloses
  have h : port.Open := by
    rcases hsettled with h | ⟨hrel, -⟩
    · exact h
    · exact absurd hrel hreleased
  rw [h.portStep_close] at hstep
  by_cases hrequests : port.requests = []
  · rw [evdnsCloseServerPort_idle h hrequests] at hstep
    cases hstep
    have hreading : port.reading = true := by
      by_contra hnot
      exact hbusy ⟨hrequests, by simpa using hnot⟩
    cases hok'.held hreading
  rw [evdnsCloseServerPort_busy h hrequests] at hstep
  cases hstep
  have hlock : port.lock + 1 = if port.reading then 1 else 0 := hok'.lock
  have hlock' := hok.lock
  omega

/-- A run of a server port goes well, with the port released exactly when the last reference to it
goes and with its lock given back by every function, exactly when the port is closed only while no
request is left and the callback is not reading. -/
theorem portRun_ok_iff (sendto : Nat → SendtoResult) (actions : List PortAction) :
    (∀ pre, pre <+: actions → ∃ port, run (portStep sendto) {} pre = .ok port ∧ PortOk port) ↔
      Meets (portStep sendto) ClosesIdle {} actions := by
  have hopen : ({} : ServerPort).Open :=
    ⟨rfl, rfl, rfl, List.nodup_nil, nofun, nofun, List.nodup_nil⟩
  refine meets_iff_ok (I := Settled) (L := fun _ => True)
    (fun port action hsettled hok _ hcloses => ?_)
    (fun port action port' hsettled hok _ hcloses hstep => ?_) (.inl hopen) (hopen.portOk rfl)
    fun _ _ => trivial
  · exact portStep_good hsettled hok hcloses
  · exact portStep_bad hsettled hok hcloses hstep

/-- A port that is closed while a request is left stays locked, and the response to that request
releases it and then unlocks it. -/
theorem close_then_respond :
    (run (portStep fun _ => .sent) {} [.ready false true, .query 0 true, .readDone, .close]).map
        (fun port => (port.reading, port.lock)) = .ok (false, 1) ∧
      run (portStep fun _ => .sent) {}
        [.ready false true, .query 0 true, .readDone, .close, .respond 0 true] =
          .error .useAfterFree := by
  decide

/-! ### Replies that cannot be sent at once -/

/-- A reply whose `sendto` would have blocked is queued, with the event waiting for the socket to
become writable, and no reply is kept whose `sendto` has failed. -/
def RepliesKept (port : ServerPort) : Prop :=
  ∀ req ∈ port.requests, (req.lastSend = some .retriable →
      req.id ∈ port.pendingReplies ∧ (port.event.any (·.write)) = true) ∧
    req.lastSend ≠ some .failed

/-- Queries, responses and the socket's readiness. -/
def Traffic : PortAction → Prop
  | .ready _ _ | .query _ _ | .readDone | .respond _ _ => True
  | .drop _ | .close => False

/-- A response that is sent is sent at the first attempt. -/
def SendsAtOnce (sendto : Nat → SendtoResult) (port : ServerPort) : PortAction → Prop
  | .respond id formats => port.owned id = true →
      (formats = true ∨ (port.find id).any (·.response) = true) → sendto port.sends = .sent
  | _ => True

/-- A port with no reply in its queue. -/
def Unqueued (port : ServerPort) : Prop := port.Open ∧ port.pendingReplies = []

section
variable (h : Unqueued port)
include h

/-- When nothing is queued, no reply has failed or would have blocked. -/
theorem Unqueued.repliesKept_iff : RepliesKept port ↔
    ∀ req ∈ port.requests, req.lastSend ≠ some .retriable ∧ req.lastSend ≠ some .failed := by
  refine forall₂_congr fun req _ => and_congr_left fun _ => ?_
  rw [h.2]
  simp

/-- A response that is sent at once leaves nothing behind. -/
theorem respond_sent (hid : id ∈ port.ids)
    (hformats : port.Formatted id formats) (hsent : sendto port.sends = .sent) :
    ∃ port', port.evdnsServerRequestRespond sendto id formats = .ok port' ∧ Unqueued port' ∧
      ∀ req ∈ port'.requests, req ∈ port.requests := by
  obtain ⟨port2, heq, hsteady, hids, hrequests, hpending⟩ :=
    @evdnsServerRequestRespond_eq port sendto id formats h.1 hid hformats
  rw [heq, hsent]
  have hid2 : id ∈ port2.ids := hids ▸ hid
  obtain ⟨port', heq', hsteady', hrest⟩ :=
    (@replySent_spec port2 sendto (fun _ => False) id hsteady.1 hid2).exists_ok
  obtain ⟨hpending', hrequests'⟩ := hrest (hpending.trans h.2)
  refine ⟨port', heq', ⟨hsteady'.1, hpending'⟩, fun req hreq => ?_⟩
  rw [hrequests'] at hreq
  obtain ⟨hmem, hne⟩ := List.mem_filter.mp hreq
  exact (hrequests req hmem).2 (by simpa using hne)

/-- A response that is not sent is kept, but it is queued only when it should have been dropped. -/
theorem respond_unsent (hid : id ∈ port.ids)
    (hformats : port.Formatted id formats) (hsent : sendto port.sends ≠ .sent) {port' : ServerPort}
    (hport' : port.evdnsServerRequestRespond sendto id formats = .ok port') :
    ¬ RepliesKept port' := by
  obtain ⟨port2, heq, hsteady, hids, hrequests, hpending⟩ :=
    @evdnsServerRequestRespond_eq port sendto id formats h.1 hid hformats
  obtain ⟨req, hreq, hreqid⟩ := List.mem_map.mp (hids ▸ hid : id ∈ port2.ids)
  have hlast := (hrequests req hreq).1 hreqid
  rw [heq] at hport'
  intro hkept
  cases hresult : sendto port.sends with
  | sent => exact hsent hresult
  | retriable =>
    rw [hresult] at hport' hlast
    rw [hsteady.unlock.1] at hport'
    cases hport'
    have hqueued := (hkept req hreq).1 hlast
    have hmem : req.id ∈ port2.pendingReplies := hqueued.1
    rw [hpending, h.2] at hmem
    cases hmem
  | failed =>
    rw [hresult] at hport' hlast
    have hfree : id ∉ port2.pendingReplies := by
      rw [hpending, h.2]
      exact List.not_mem_nil
    have hqueued := hsteady.1.queueReply (hids ▸ hid) hfree
    rw [(hsteady.trans hqueued).unlock.1] at hport'
    cases hport'
    have hmem : req ∈ (port2.queueReply id).requests := by
      rw [ServerPort.queueReply]
      split <;> exact hreq
    exact (hkept req hmem).2 hlast

/-- The same requests, with nothing queued. -/
theorem Unqueued.repliesKept_of_subset (hkept : RepliesKept port) (h' : Unqueued port')
    (hsub : ∀ req ∈ port'.requests, req ∈ port.requests ∨ req.lastSend = none) :
    RepliesKept port' := by
  rw [h'.repliesKept_iff]
  intro req hreq
  rcases hsub req hreq with hmem | hnone
  · exact h.repliesKept_iff.mp hkept req hmem
  · simp [hnone]

/-- `server_port_ready_callback` when nothing is queued. -/
theorem serverPortReady_unqueued (write read : Bool) :
    ∃ port', port.serverPortReady sendto write read = .ok port' ∧ Unqueued port' ∧
      port'.requests = port.requests := by
  have hpending := h.2
  have hreleased := h.1.released
  cases write <;> cases read <;>
    simp only [serverPortReady, evdnsLock, touch, hpending, hreleased] <;>
    exact ⟨_, rfl, ⟨{ h.1 with released := rfl, pending := nofun, queued := List.nodup_nil }, rfl⟩,
      rfl⟩

/-- A run's step at which every response is sent leaves nothing to queue. -/
theorem repliesStep_good (hkept : RepliesKept port) (htraffic : Traffic action)
    (hsends : SendsAtOnce sendto port action) :
    ∃ port', portStep sendto port action = .ok port' ∧ Unqueued port' ∧ RepliesKept port' := by
  have hstay : Unqueued port ∧ RepliesKept port := ⟨h, hkept⟩
  cases action with
  | ready write read =>
    refine portStep_guard hstay fun _ => ?_
    obtain ⟨port', heq, h', hrequests⟩ := @serverPortReady_unqueued port sendto h write read
    exact ⟨port', heq, h', h.repliesKept_of_subset hkept h' fun req hreq =>
      .inl (hrequests ▸ hreq)⟩
  | query flags formats =>
    refine portStep_guard hstay fun _ => ?_
    obtain ⟨port', heq, hsteady, hrequests, hpending⟩ := requestParse_eq h.1 flags formats
    have h' : Unqueued port' := ⟨hsteady.1, hpending.trans h.2⟩
    refine ⟨port', heq, h', h.repliesKept_of_subset hkept h' fun req hreq => ?_⟩
    rw [hrequests] at hreq
    rcases List.mem_append.mp hreq with hreq | hreq
    · exact .inl hreq
    · obtain rfl := List.mem_singleton.mp hreq
      exact .inr rfl
  | readDone =>
    refine portStep_guard hstay fun _ => ?_
    rw [serverPortReadDone, touch_eq h.1.released]
    have h' : Unqueued { port with reading := false, lock := port.lock - 1 } :=
      ⟨{ h.1 with }, h.2⟩
    exact ⟨_, evdnsUnlock_eq h.1.released, h',
      h.repliesKept_of_subset hkept h' fun req hreq => .inl hreq⟩
  | respond id formats =>
    refine portStep_guard hstay fun howned => ?_
    have hid := (owned_iff.mp howned).1
    by_cases hformats : port.Formatted id formats
    · obtain ⟨port', heq, h', hsub⟩ := respond_sent h hid hformats (hsends howned hformats)
      exact ⟨port', heq, h', h.repliesKept_of_subset hkept h' fun req hreq =>
        .inl (hsub req hreq)⟩
    · exact ⟨port, evdnsServerRequestRespond_unformatted h.1 hid hformats, hstay⟩
  | drop id => exact htraffic.elim
  | close => exact htraffic.elim

/-- A response that is not sent at the first attempt ends on the wrong side. -/
theorem repliesStep_bad (hsends : ¬ SendsAtOnce sendto port action)
    (hstep : portStep sendto port action = .ok port') : ¬ RepliesKept port' := by
  cases action with
  | respond id formats =>
    simp only [SendsAtOnce, Classical.not_imp] at hsends
    obtain ⟨howned, hformats, hunsent⟩ := hsends
    rw [portStep, if_pos howned] at hstep
    exact respond_unsent h (owned_iff.mp howned).1 hformats hunsent hstep
  | _ => exact absurd trivial hsends

end

/-- In a run of queries, responses and ready sockets, every reply that would have blocked is queued
until it is sent, and every reply that has failed is dropped, exactly when every response is sent at
the first attempt. -/
theorem repliesRun_iff (sendto : Nat → SendtoResult) (actions : List PortAction)
    (htraffic : ∀ action ∈ actions, Traffic action) :
    (∀ pre, pre <+: actions → ∃ port, run (portStep sendto) {} pre = .ok port ∧ RepliesKept port) ↔
      Meets (portStep sendto) (SendsAtOnce sendto) {} actions := by
  have hopen : ({} : ServerPort).Open :=
    ⟨rfl, rfl, rfl, List.nodup_nil, nofun, nofun, List.nodup_nil⟩
  refine meets_iff_ok (I := Unqueued) (fun port action h hkept htraffic hsends => ?_)
    (fun port action port' h _ _ hsends hstep => ?_) ⟨hopen, rfl⟩ nofun htraffic
  · exact repliesStep_good h hkept htraffic hsends
  · exact repliesStep_bad h hsends hstep

/-- Two queries arrive and are answered. -/
def twoAnswers : List PortAction :=
  [.ready false true, .query 0 true, .query 0 true, .readDone, .respond 0 true, .respond 1 true]

/-- Both replies are sent. If the second would block, it is not kept as it should. -/
theorem repliesRun_iff_sample :
    (∀ pre, pre <+: twoAnswers → ∃ port, run (portStep fun _ => .sent) {} pre = .ok port ∧
      RepliesKept port) ∧
    ¬ ∀ pre, pre <+: twoAnswers → ∃ port, run (portStep fun n => if n = 0 then .sent
      else .retriable) {} pre = .ok port ∧ RepliesKept port := by
  have htraffic : ∀ action ∈ twoAnswers, Traffic action := by simp [twoAnswers, Traffic]
  rw [repliesRun_iff _ _ htraffic, repliesRun_iff _ _ htraffic]
  constructor
  · iterate 4 refine Meets.cons trivial rfl ?_
    exact Meets.cons (fun _ _ => rfl) rfl (Meets.cons (fun _ _ => rfl) rfl trivial)
  · rintro ⟨-, h⟩
    have hsecond := ((((((h _ rfl).2 _ rfl).2 _ rfl).2 _ rfl).2 _ rfl).1 rfl (.inl rfl))
    cases hsecond

/-- A reply that would have blocked is kept and not queued, and one that has failed is queued. -/
theorem respond_blocked_not_queued : (run (portStep fun _ => .retriable) {}
        [.ready false true, .query 0 true, .readDone, .respond 0 true]).map
        (fun port => (port.requests.map (·.lastSend), port.pendingReplies, port.event)) =
      .ok ([some .retriable], [], some ⟨true, false⟩) ∧
    (run (portStep fun _ => .failed) {}
        [.ready false true, .query 0 true, .readDone, .respond 0 true]).map
        (fun port => (port.requests.map (·.lastSend), port.pendingReplies, port.event)) =
      .ok ([some .failed], [0], some ⟨true, true⟩) := by
  decide

end ServerPort

end Libevent
