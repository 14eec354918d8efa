import Libevent.Proofs.Dns.Bookkeeping

/-!
# `Libevent.Proofs.Dns.Waiting`: requests that are left waiting

A request that waits has no timer: it is started when another request ends, by the pump. So a base
should not come to rest with a request waiting while there is room to send it. `search_try_next`
breaks this (`searchTryNext_stranded`). It decides that the next request has to wait while the old
one still counts, and puts it into the waiting ring after the old one has ended and the pump has
run. If the old request was the one that filled the base, the new one waits although there is room,
and nothing will start it.

`PacketRoom` is the condition that a packet does not do this: when the next name of a search is
tried, there are fewer requests than the maximum, or more. `dnsRun_flowing` is for such runs.
-/

namespace Libevent

open Lib

namespace EvdnsBase

variable {base : EvdnsBase} {maxinflight : Int}

/-- The step does not set the maximum and frees no nameserver, and a packet has room. -/
def Unhurried (base : EvdnsBase) (action : DnsAction) : Prop :=
  action ≠ .suspend ∧ (∀ maxinflight, action ≠ .setMaxInflight maxinflight) ∧ base.Room action

/-- A packet has room as long as there are fewer requests than the maximum. -/
theorem packetRoom_of_lt (h : base.total < base.globalMaxRequestsInflight) (transId flags : Nat)
    (reply : Option DnsReply) : base.PacketRoom transId flags reply := by
  intro id error _ _ _ _ req ns _ _
  rw [remaining]
  split <;> omega

/-- What holds between two steps of a run that leaves no request waiting. -/
structure Flowing (maxinflight : Int) (base : EvdnsBase) : Prop extends base.Intact where
  max : base.globalMaxRequestsInflight = maxinflight
  servers : base.servers ≠ []
  pumped : base.Pumped

theorem evdnsNameserverAdd_servers_ne_nil (base : EvdnsBase) :
    base.evdnsNameserverAdd.servers ≠ [] := by
  rw [evdnsNameserverAdd]
  cases base.servers <;> exact List.cons_ne_nil _ _

theorem Flowing.step {env : DnsEnv} {action : DnsAction} (h : base.Flowing maxinflight)
    (haction : base.Unhurried action) :
    Yields (· = .spins) (dnsStep env base action) (Flowing maxinflight) := by
  have hordinary : action.Ordinary →
      Yields (· = .spins) (dnsStep env base action) (Flowing maxinflight) := by
    intro hordinary
    refine (h.toIntact.ordinary hordinary).mono ?_
    rintro base' ⟨h', hstepped⟩
    refine ⟨h', hstepped.path.max.trans h.max, fun hnil => ?_, hstepped.pumped haction.2.2 h.pumped⟩
    exact h.servers (List.perm_nil.mp (hnil ▸ hstepped.path.servers.symm))
  cases action with
  | suspend => exact absurd rfl haction.1
  | setMaxInflight maxinflight' => exact absurd rfl (haction.2.1 maxinflight')
  | nameserverAdd =>
    exact ⟨⟨h.inv.nameserverAdd, h.released⟩, h.max, evdnsNameserverAdd_servers_ne_nil base,
      fun _ => h.pumped h.servers⟩
  | _ => exact hordinary trivial

/-- A new base has the nameservers that it was given, and no requests. -/
theorem evdnsBaseNew_servers (options : DnsOptions) : (evdnsBaseNew options).reqWaitingHead = [] ∧
      (0 < options.nameservers → (evdnsBaseNew options).servers ≠ []) := by
  have hadded := iterate_nameserverAdd (P := (·.reqWaitingHead = [])) (fun _ h => h)
    options.nameservers
  refine ⟨hadded _ (by rfl), fun hpos => ?_⟩
  obtain ⟨n, hn⟩ := Nat.exists_eq_succ_of_ne_zero hpos.ne'
  rw [evdnsBaseNew, hn, Function.iterate_succ_apply']
  exact evdnsNameserverAdd_servers_ne_nil _

/-- A new base with its maximum. -/
theorem flowing_new {options : DnsOptions} (hservers : 0 < options.nameservers)
    (hmax : 1 ≤ maxinflight)
    (hbase : (evdnsBaseNew options).evdnsBaseSetMaxRequestsInflight maxinflight = .ok base) :
    base.Flowing maxinflight := by
  obtain ⟨heads, hrun, -, h⟩ :=
    evdnsBaseSetMaxRequestsInflight_spec (intact_new options).inv maxinflight
  cases hrun.symm.trans hbase
  obtain ⟨hwaiting, hne⟩ := evdnsBaseNew_servers options
  refine ⟨⟨h, (intact_new options).released⟩, ?_, hne hservers, fun _ => .inl hwaiting⟩
  show (if maxinflight < 1 then 1 else maxinflight) = maxinflight
  rw [if_neg (by omega)]

end EvdnsBase

/-- From a base with a nameserver, in every run that leaves the maximum alone, frees no nameserver
and in which every packet has room, a request that waits does so because the maximum has been
reached. -/
theorem dnsRun_flowing (env : DnsEnv) {options : EvdnsBase.DnsOptions}
    (hservers : 0 < options.nameservers) {maxinflight : Int} (hmax : 1 ≤ maxinflight)
    {base : EvdnsBase}
    (hbase : (EvdnsBase.evdnsBaseNew options).evdnsBaseSetMaxRequestsInflight maxinflight =
      .ok base)
    {actions : List DnsAction} (hactions : Meets (dnsStep env) EvdnsBase.Unhurried base actions) :
    Yields (· = .spins) (run (dnsStep env) base actions) fun base' =>
      base'.reqWaitingHead ≠ [] → maxinflight ≤ base'.globalRequestsInflight := by
  refine (Yields.run (I := EvdnsBase.Flowing maxinflight) (fun _ _ h haction => h.step haction)
    (EvdnsBase.flowing_new hservers hmax hbase) hactions).mono ?_
  intro base' h hwaiting
  have hle := (h.pumped h.servers).resolve_left hwaiting
  rw [h.max] at hle
  exact hle

/-- A search that goes on to its second name, with a maximum of two. -/
theorem dnsRun_flowing_search :
    let env := steadyEnv
    let options := searchOptions
    let base : EvdnsBase :=
      { EvdnsBase.evdnsBaseNew options with reqHeads := [[]], globalMaxRequestsInflight := 2 }
    let actions : List DnsAction := [.resolve .a [120] false, .packet 0 1 0x8183 none]
    ((run (dnsStep env) base actions).toOption.map fun base =>
        (base.reqWaitingHead, base.globalRequestsInflight, base.reqHeads)) = some ([], 1, [[1]]) ∧
      Yields (· = .spins) (run (dnsStep env) base actions) fun base' =>
        base'.reqWaitingHead ≠ [] → 2 ≤ base'.globalRequestsInflight := by
  refine ⟨rfl, ?_⟩
  have hbase : (EvdnsBase.evdnsBaseNew searchOptions).evdnsBaseSetMaxRequestsInflight 2 = .ok _ :=
    rfl
  refine dnsRun_flowing _ Nat.one_pos (by decide) hbase ?_
  refine Meets.cons ⟨nofun, nofun, trivial⟩ rfl ?_
  exact Meets.cons ⟨nofun, nofun, EvdnsBase.packetRoom_of_lt (by decide) _ _ _⟩ rfl trivial

/-- With a maximum of one, the request for the second name of a search waits, and none is in
flight. -/
theorem searchTryNext_stranded :
    let env := steadyEnv
    let options := searchOptions
    let actions : List DnsAction := [.resolve .a [120] false, .packet 0 1 0x8183 none]
    (((EvdnsBase.evdnsBaseNew options).evdnsBaseSetMaxRequestsInflight 1 >>= fun base =>
        run (dnsStep env) base actions).toOption.map fun base =>
      (base.reqWaitingHead, base.globalRequestsInflight, base.globalMaxRequestsInflight)) =
      some ([1], 0, 1) := rfl

end Libevent
