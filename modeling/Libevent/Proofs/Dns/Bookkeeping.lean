import Libevent.Proofs.Dns.Step

/-!
# `Libevent.Proofs.Dns.Bookkeeping`: requests, rings and counters in every run

`Bookkeeping` spells the invariant out in the words of the source. `dnsRun_bookkeeping`: it holds in
every run that frees no nameserver, and such a run meets no fault: no assertion fails,
`nameserver_pick` included, and nothing is used after it has been freed. The one way for a run not
to end is a random number generator that gives no transaction id which is not in use, since
`transaction_id_pick` then goes on drawing.
-/

namespace Libevent

open Lib

namespace EvdnsBase

/-- The bookkeeping of a base. -/
structure Bookkeeping (base : EvdnsBase) : Prop where
  /-- No request is in two rings or twice in one. -/
  nodup : (base.reqWaitingHead ++ base.reqHeads.flatten).Nodup
  allocated : ∀ id ∈ base.reqWaitingHead ++ base.reqHeads.flatten, (base.req id).isSome
  /-- A request waits and has no nameserver, or it is in the ring of its id and has one. -/
  ring : ∀ id req, base.req id = some req → (id ∈ base.reqWaitingHead ∧ req.ns = none) ∨
    ∃ ids, base.reqHeads[req.transId % base.reqHeads.length]? = some ids ∧ id ∈ ids ∧
      ∃ ns ∈ base.servers, req.ns = some ns
  waiting : base.globalRequestsWaiting = base.reqWaitingHead.length
  inflight : base.globalRequestsInflight = base.reqHeads.flatten.length
  load : ∀ ns ∈ base.servers, (base.nameserver ns).requestsInflight =
    base.reqHeads.flatten.countP fun id => (base.req id).any (·.ns = some ns)
  good : base.globalGoodNameservers = base.servers.countP fun ns => (base.nameserver ns).state
  /-- A request and its handle point at each other. -/
  handle : ∀ id req, base.req id = some req →
    ∃ h handle, req.handle = some h ∧ base.handle h = some handle ∧ handle.currentReq = some id
  current : ∀ h handle id, base.handle h = some handle → handle.currentReq = some id →
    ∃ req, base.req id = some req ∧ req.handle = some h

variable {base : EvdnsBase} {env : DnsEnv} {action : DnsAction}

/-- The requests of a nameserver, in the words of the source. -/
theorem onServer_eq (base : EvdnsBase) (ns id : Nat) :
    DnsRings.onServer base.rings.place ns id = (base.req id).any (·.ns = some ns) := by
  cases hreq : base.req id with
  | none => simp [DnsRings.onServer, rings, hreq]
  | some req => simp [DnsRings.onServer, rings, hreq]

/-- Between two operations, the invariant gives the bookkeeping of the base. -/
theorem Inv.bookkeeping (h : base.Inv {}) : base.Bookkeeping where
  nodup := by
    have hnodup := h.rings.nodup
    rw [DnsRings.all, List.append_nil] at hnodup
    exact hnodup
  allocated := by
    intro id hid
    have hsome := (h.rings.live id).mpr (List.mem_append_left _ hid)
    rwa [EvdnsBase.rings, Option.isSome_map] at hsome
  ring := by
    intro id req hreq
    have hplace := place_of_req hreq rfl
    cases hns : req.ns with
    | none =>
      rw [hns] at hplace
      exact .inl ⟨h.rings.mem_waiting hplace List.not_mem_nil, rfl⟩
    | some ns =>
      rw [hns] at hplace
      obtain ⟨ids, hids, hmem, hserver, -⟩ := h.rings.mem_head hplace List.not_mem_nil
      exact .inr ⟨ids, hids, hmem, ns, hserver, rfl⟩
  waiting := h.rings.waitingCount
  inflight := h.rings.inflightCount
  load := by
    intro ns hns
    have hload := h.rings.load ns hns
    rw [funext (onServer_eq base ns)] at hload
    exact hload
  good := h.goods.good
  handle := by
    intro id req hreq
    obtain ⟨hd, hhd⟩ := h.owner hreq List.not_mem_nil
    have howner := owner_of_req hreq hhd
    obtain ⟨pending, hcur⟩ := h.links.linked id hd _ howner
    obtain ⟨handle, hhandle, hcurrent, -⟩ := exists_handle_of_current hcur
    exact ⟨hd, handle, hhd, hhandle, hcurrent⟩
  current := by
    intro hd handle id hhandle hcurrent
    have hcur := current_of_handle hhandle
    rw [hcurrent] at hcur
    obtain ⟨c, howner⟩ := h.links.back hd id _ hcur
    obtain ⟨req, hreq, hhd, -⟩ := exists_req_of_owner howner
    exact ⟨req, hreq, hhd⟩

/-! ### Runs -/

/-- What holds between two steps as long as no nameserver is freed. -/
structure Intact (base : EvdnsBase) : Prop where
  inv : base.Inv {}
  released : base.released = []

/-- With no nameserver freed, a step can only fail to end. -/
theorem Intact.fault (h : base.Intact) {e : DnsFault} (he : base.StepFault e) : e = .spins :=
  he.resolve_right fun hstale => hstale.1 h.released

/-- Every change is permitted. -/
theorem allows_all (base : EvdnsBase) (action : DnsAction) : base.Allows {} action := by
  cases action with
  | packet ns transId flags reply =>
    exact fun id _ => ⟨fun _ _ _ _ => trivial, fun _ _ _ _ => .inl trivial, fun _ => trivial⟩
  | callback => exact fun _ _ _ _ _ _ _ => trivial
  | _ => exact trivial

/-- A step other than adding nameservers and setting the maximum. -/
theorem Intact.ordinary (h : base.Intact) (haction : action.Ordinary) :
    Yields (· = .spins) (dnsStep env base action) fun base' => base'.Intact ∧
      Stepped env {} (base.Room action) {} {} base base' := by
  refine ((dnsStep_spec h.inv haction (allows_all base action)).weaken fun _ => h.fault).mono ?_
  rintro base' ⟨h', hstepped⟩
  exact ⟨⟨h', hstepped.path.released.trans h.released⟩, hstepped⟩

/-- One step of a run that frees no nameserver. -/
theorem Intact.step (h : base.Intact) (haction : action ≠ .suspend) :
    Yields (· = .spins) (dnsStep env base action) fun base' => base'.Intact := by
  cases action with
  | suspend => exact absurd rfl haction
  | nameserverAdd => exact ⟨h.inv.nameserverAdd, h.released⟩
  | setMaxInflight maxinflight =>
    obtain ⟨heads, hrun, -, h'⟩ := evdnsBaseSetMaxRequestsInflight_spec h.inv maxinflight
    exact Yields.of_eq hrun ⟨h', h.released⟩
  | _ => exact (h.ordinary (by trivial)).mono fun _ => And.left

/-- One step keeps what each of its changes keeps, and what follows from it. Adding a nameserver and
setting the maximum are looked at by themselves. -/
theorem Intact.preserves {permits : DnsPermits} {P : EvdnsBase → DnsCtx → Prop}
    {Q : EvdnsBase → Prop} (h : base.Intact) (haction : action ≠ .suspend)
    (hallows : base.Allows permits action) (hchange : ∀ {base ctx base' ctx'}, Change env permits
      base ctx base' ctx' → P base ctx → P base' ctx') (hend : ∀ base, P base {} → Q base)
    (hadd : P base {} → Q base.evdnsNameserverAdd) (hmax : ∀ heads max, heads.flatten.Perm
      base.reqHeads.flatten → P base {} → Q { base with reqHeads := heads, globalMaxRequestsInflight
      := max }) (hbase : P base {}) :
    Yields (· = .spins) (dnsStep env base action) fun base' => base'.Intact ∧ Q base' := by
  refine (h.step haction).and ?_
  have hordinary : action.Ordinary → Yields (· = .spins) (dnsStep env base action) Q := by
    intro hordinary
    refine ((dnsStep_spec h.inv hordinary hallows).weaken fun _ => h.fault).mono ?_
    rintro base' ⟨-, hstepped⟩
    exact hend base' (hstepped.path.preserves hchange hbase)
  cases action with
  | suspend => exact absurd rfl haction
  | nameserverAdd => exact hadd hbase
  | setMaxInflight maxinflight =>
    obtain ⟨heads, hrun, hperm, -⟩ := evdnsBaseSetMaxRequestsInflight_spec h.inv maxinflight
    exact Yields.of_eq hrun (hmax heads _ hperm hbase)
  | _ => exact hordinary trivial

theorem intact_new (options : DnsOptions) : (evdnsBaseNew options).Intact := by
  have hadded := iterate_nameserverAdd (P := (·.released = [])) (fun _ h => h) options.nameservers
  exact ⟨inv_new options, hadded _ (by rfl)⟩

end EvdnsBase

/-- In every run that frees no nameserver the bookkeeping holds, and nothing fails but a random
number generator that gives no free id. -/
theorem dnsRun_bookkeeping (env : DnsEnv) (options : EvdnsBase.DnsOptions)
    (actions : List DnsAction) (hactions : DnsAction.suspend ∉ actions) :
    Yields (· = .spins) (run (dnsStep env) (EvdnsBase.evdnsBaseNew options) actions)
      EvdnsBase.Bookkeeping := by
  have hmeets : Meets (dnsStep env) (fun _ action => action ≠ .suspend)
      (EvdnsBase.evdnsBaseNew options) actions := by
    refine meets_of_forall _ fun action haction => ?_
    rintro rfl
    exact hactions haction
  refine (Yields.run (I := EvdnsBase.Intact) (fun base action h haction => ?_)
    (EvdnsBase.intact_new options) hmeets).mono ?_
  · exact h.step haction
  · exact fun base h => h.inv.bookkeeping

/-- Every packet is sent, and the ids are drawn in their order. -/
def steadyEnv : DnsEnv where
  random n := [UInt16.ofNat (n + 1)]
  sendto _ := .sent

/-- One nameserver, and a search in one domain. -/
def searchOptions : EvdnsBase.DnsOptions :=
  { nameservers := 1, globalSearchState := some { domains := [[97]] } }

/-- Two requests, one of which is answered, and a nameserver that is added before the maximum is
lowered. -/
theorem dnsRun_bookkeeping_two_requests :
    let env := steadyEnv
    let actions : List DnsAction := [.resolve .a [120] true, .resolve .aaaa [121] true,
      .packet 0 1 0x8180 (some ⟨true⟩), .callback, .nameserverAdd, .setMaxInflight 1]
    DnsAction.suspend ∉ actions ∧
      (run (dnsStep env) (EvdnsBase.evdnsBaseNew { nameservers := 1 }) actions).toOption.map
        (fun base => (base.globalRequestsInflight, base.reqHeads, base.servers)) =
        some (1, [[1]], [0, 1]) ∧
      Yields (· = .spins) (run (dnsStep env) (EvdnsBase.evdnsBaseNew { nameservers := 1 }) actions)
        EvdnsBase.Bookkeeping := by
  refine ⟨by decide, rfl, ?_⟩
  exact dnsRun_bookkeeping _ _ _ (by decide)

end Libevent
