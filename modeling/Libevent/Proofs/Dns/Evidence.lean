import Libevent.Proofs.Dns.Bookkeeping

/-!
# `Libevent.Proofs.Dns.Evidence`: what brings a nameserver back

A nameserver that is down should come up because of a packet that has been received on its own
socket since it went down. Three things stand in the way. A reply is matched with a request by its
id alone, and `reply_handle` credits the nameserver that the request has at that time, whichever
socket the reply came from. `evdns_request_timeout_callback` gives a probe that is not answered to
another nameserver, and `nameserver_probe_callback` credits the nameserver that was to be probed,
whoever has answered. And the callback runs later, when the nameserver may have gone down again.

`Credible` excludes these: the request that a packet finds is at the nameserver that has sent the
packet, or at one that is up, and the nameserver of a probe that has been answered is up when the
callback runs. `dnsRun_ownEvidence` is about such steps. Others can be rightful, too: a nameserver
that answers its probe late, on its own socket, when another one that is up has got the probe.
-/

namespace Libevent

open Lib

namespace EvdnsBase

variable {base base' : EvdnsBase} {env : DnsEnv} {permits : DnsPermits} {ctx ctx' : DnsCtx}
  {x : Nat} {ns : Nat} {action : DnsAction}

/-- One nameserver changes, and is not brought up. -/
theorem modifyNs_down {f : Nameserver → Nameserver}
    (hf : (f (base.nameserver ns)).state = true → (base.nameserver ns).state = true)
    (hx : ((base.modifyNs ns f).nameserver x).state = true) : (base.nameserver x).state = true := by
  by_cases hxn : x = ns
  · subst hxn
    rw [modifyNs_self] at hx
    exact hf hx
  · rw [modifyNs_other base hxn] at hx
    exact hx

theorem nameserverWriteWaiting_down {waiting : Bool}
    (hx : ((base.nameserverWriteWaiting ns waiting).nameserver x).state = true) :
    (base.nameserver x).state = true := by
  rw [nameserverWriteWaiting] at hx
  split at hx
  · exact hx
  · exact modifyNs_down (f := fun server => { server with writeWaiting := waiting, event := true })
      (fun hup => hup) hx

theorem startSend_down (ns : Nat) (hx : ((base.startSend ns).nameserver x).state = true) :
    (base.nameserver x).state = true :=
  modifyNs_down (f := base.startEvent) (fun hup => hup) hx

theorem swapNs_down (id old ns : Nat) (hx : ((base.swapNs id old ns).nameserver x).state = true) :
    (base.nameserver x).state = true := by
  have hold := modifyNs_down (f := Nameserver.more) (fun hup => hup) hx
  exact modifyNs_down (f := Nameserver.less) (fun hup => hup) hold

theorem launchReq_down (id ns t : Nat) (hx : ((base.launchReq id ns t).nameserver x).state = true) :
    (base.nameserver x).state = true :=
  modifyNs_down (f := Nameserver.more) (fun hup => hup) hx

/-- A change brings no nameserver up but those that are permitted to. -/
theorem Change.up (hchange : Change env permits base ctx base' ctx')
    (hup : (base'.nameserver ns).state = true) :
    (base.nameserver ns).state = true ∨ permits.raise ns := by
  cases hchange with
  | rotate | reqDetails | skip | hide | unhide | assign | due => exact .inl hup
  | aside haside | enqueue haside => exact .inl (haside.nameserver ▸ hup)
  | nsDetails x hf => exact .inl (modifyNs_down (fun h => (hf _).1 ▸ h) hup)
  | down x =>
    refine .inl (modifyNs_down (f := fun server =>
      { server with state := false, failedTimes := 1, timer := true }) nofun hup)
  | reassign | retry => exact .inl (swapNs_down _ _ _ hup)
  | sent | fail => exact .inl (startSend_down _ hup)
  | @choke _ x =>
    refine .inl (startSend_down x (modifyNs_down (f := fun server =>
      { server with choked := true }) (fun h => h) (nameserverWriteWaiting_down hup)))
  | @move id x t => exact .inl (launchReq_down id x t hup)
  | unlink hunlinked => exact .inl (hunlinked.state ns ▸ hup)
  | hidden hns hf => exact .inl (modifyNs_down (fun h => (hf _).1 ▸ h) hup)
  | @raise x hx =>
    by_cases hns : ns = x
    · exact .inr (hns ▸ hx)
    refine .inl ?_
    have hsame : (base.markUp x).nameserver ns = base.nameserver ns :=
      Function.update_of_ne hns _ _
    exact hsame ▸ hup
  | make =>
    rw [newReq] at hup
    split at hup <;> exact .inl hup
  | launch => exact .inl (launchReq_down _ _ _ hup)
  | @reissue id old x => exact .inl (swapNs_down id old x hup)
  | unchoke =>
    exact .inl (modifyNs_down (f := fun server => { server with choked := false }) (fun h => h) hup)
  | writeWaiting => exact .inl (nameserverWriteWaiting_down hup)

/-! ### Runs -/

/-- The step frees no nameserver. A packet finds a request that is at the nameserver which has sent
the packet, or at one that is up. The nameserver of a probe that has been answered is up when the
callback runs. -/
def Credible (base : EvdnsBase) : DnsAction → Prop
  | .suspend => False
  | .packet ns transId _ _ => ∀ id req n, base.requestFindFromTransId transId = some id →
      base.req id = some req → req.ns = some n → n = ns ∨ (base.nameserver n).state = true
  | .callback => ∀ d rest ns, base.deferred = d :: rest → d.callback = .probe ns →
      d.err = .none ∨ d.err = .notexist → (base.nameserver ns).state = true
  | _ => True

/-- The nameservers that such a step may bring up. -/
def Credits (base : EvdnsBase) (action : DnsAction) (ns : Nat) : Prop :=
  (base.nameserver ns).state = true ∨ ∃ transId flags reply, action = .packet ns transId flags reply

theorem Credible.allows (h : base.Credible action) :
    base.Allows { raise := base.Credits action } action := by
  cases action with
  | packet ns transId flags reply =>
    intro id hfind
    refine ⟨fun req n hreq hn => ?_, fun _ _ _ _ => .inl trivial, fun _ => trivial⟩
    rcases h id req n hfind hreq hn with rfl | hup
    · exact .inr ⟨transId, flags, reply, rfl⟩
    · exact .inl hup
  | callback =>
    intro d rest ns hdeferred hcallback herr hdown
    exact .inl (h d rest ns hdeferred hcallback herr)
  | _ => exact trivial

theorem Credible.step (hintact : base.Intact) (haction : base.Credible action) :
    Yields (· = .spins) (dnsStep env base action) fun base' => base'.Intact ∧
      ∀ ns ∈ base.servers, (base'.nameserver ns).state = true → base.Credits action ns := by
  have hne : action ≠ .suspend := by
    rintro rfl
    exact haction
  refine hintact.preserves (P := fun s _ => ∀ ns, (s.nameserver ns).state = true →
    base.Credits action ns) hne haction.allows ?_ ?_ ?_ ?_ ?_
  · intro s ctx s' ctx' hchange hs ns hup
    rcases hchange.up hup with hup | hraise
    · exact hs ns hup
    · exact hraise
  · exact fun _ hs ns _ => hs ns
  · intro hs ns hns hup
    have hold : ns ≠ base.nextNs :=
      fun heq => Nat.lt_irrefl _ (heq ▸ hintact.inv.goods.known ns hns)
    rw [nameserverAdd_other base hold] at hup
    exact hs ns hup
  · exact fun _ _ _ hs ns _ => hs ns
  · exact fun ns hup => .inl hup

end EvdnsBase

/-- In every run whose steps are credible, a step brings a nameserver up that was down only if it is
a packet that has been received on that nameserver's socket. -/
theorem dnsRun_ownEvidence (env : DnsEnv) {options : EvdnsBase.DnsOptions}
    {actions : List DnsAction} {base : EvdnsBase} {action : DnsAction}
    (hactions : Meets (dnsStep env) EvdnsBase.Credible (EvdnsBase.evdnsBaseNew options) actions)
    (hbase : run (dnsStep env) (EvdnsBase.evdnsBaseNew options) actions = .ok base)
    (haction : base.Credible action) :
    Yields (· = .spins) (dnsStep env base action) fun base' => ∀ ns ∈ base.servers,
      (base.nameserver ns).state = false → (base'.nameserver ns).state = true →
        ∃ transId flags reply, action = .packet ns transId flags reply := by
  have hintact : Yields (· = .spins) (run (dnsStep env) (EvdnsBase.evdnsBaseNew options) actions)
      EvdnsBase.Intact := by
    refine Yields.run (I := EvdnsBase.Intact) (fun base action h haction => ?_)
      (EvdnsBase.intact_new options) hactions
    exact (EvdnsBase.Credible.step h haction).mono fun _ hbase' => hbase'.1
  rw [hbase] at hintact
  refine (EvdnsBase.Credible.step hintact haction).mono ?_
  rintro base' ⟨-, hcredits⟩ ns hns hdown hup
  rcases hcredits ns hns hup with hup' | hpacket
  · rw [hdown] at hup'
    cases hup'
  · exact hpacket

/-- The only nameserver goes down, is probed, and its answer to the probe brings it up. -/
theorem dnsRun_ownEvidence_probe :
    let env := steadyEnv
    let actions : List DnsAction := [.readError 0, .probe 0]
    ((run (dnsStep env) (EvdnsBase.evdnsBaseNew { nameservers := 1 })
        (actions ++ [.packet 0 2 0x8180 (some ⟨true⟩)])).toOption.map fun base =>
          (base.nameserver 0).state) = some true ∧
      ∀ base, run (dnsStep env) (EvdnsBase.evdnsBaseNew { nameservers := 1 }) actions = .ok base →
        Yields (· = .spins) (dnsStep env base (.packet 0 2 0x8180 (some ⟨true⟩))) fun base' =>
          ∀ ns ∈ base.servers, (base.nameserver ns).state = false →
            (base'.nameserver ns).state = true → ∃ transId flags reply,
              DnsAction.packet 0 2 0x8180 (some ⟨true⟩) = .packet ns transId flags reply := by
  refine ⟨rfl, fun base hbase => dnsRun_ownEvidence _ ?_ hbase ?_⟩
  · exact Meets.cons trivial rfl (Meets.cons trivial rfl trivial)
  cases hbase
  intro id req n hfind hreq hn
  cases hfind
  cases hreq
  exact .inl (Option.some.inj hn).symm

/-- The first nameserver is down. The probe that it does not answer is given to the second one,
whose answer brings the first one up. -/
theorem nameserverProbeCallback_unproved :
    let env := steadyEnv
    let actions : List DnsAction :=
      [.readError 0, .probe 0, .timeout 0, .packet 1 2 0x8180 (some ⟨true⟩)]
    (∀ action ∈ actions, ∀ transId flags reply, action ≠ .packet 0 transId flags reply) ∧
      ((run (dnsStep env) (EvdnsBase.evdnsBaseNew { nameservers := 2 }) actions).toOption.map
        fun base => (base.nameserver 0).state) = some false ∧
      ((run (dnsStep env) (EvdnsBase.evdnsBaseNew { nameservers := 2 })
        (actions ++ [.callback])).toOption.map fun base => (base.nameserver 0).state) =
        some true := by
  refine ⟨?_, rfl, rfl⟩
  simp

end Libevent
