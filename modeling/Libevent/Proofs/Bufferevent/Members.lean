import Mathlib.Data.List.TakeWhile
import Libevent.Bufferevent.Threads
import Libevent.Proofs.Bufferevent.Pending

/-!
# `Libevent.Proofs.Bufferevent.Members`: groups do not strand a member

`Enrolled s`: the lists of the groups and the pointers of the bufferevents say the same, and a
member that a group has suspended, or that is about to suspend itself, is not forgotten: the group
is suspended, or it will try again (`pending_unsuspend_read` or `pending_unsuspend_write`).

`groupRun_unstranded`: this holds whatever the threads do in whatever order, and whichever locks
the walks over the members get. A walk in random order visits every member exactly once
(`foreachRandomOrder_perm`).
-/

namespace Libevent

open Lib Function SuspendReason

/-! ### Walks -/

variable {members : List BevId}

/-- A walk in random order is a permutation of the members. -/
theorem foreachRandomOrder_perm (hnodup : members.Nodup) (which : Nat) :
    (foreachRandomOrder members which).Perm members := by
  have hbefore : members.takeWhile (fun m => some m ≠ members[which]?) = members.take which := by
    by_cases hwhich : which < members.length
    · -- the walk stops where it started, as that member is not in front of itself
      have hsplit : members.take which ++ members[which] :: members.drop (which + 1) = members := by
        rw [← List.drop_eq_getElem_cons hwhich, List.take_append_drop]
      have hnot : ∀ m ∈ members.take which, m ≠ members[which] := by
        rw [← hsplit] at hnodup
        exact fun m hm heq => (List.nodup_append.mp hnodup).2.2 m hm _ List.mem_cons_self heq
      rw [List.getElem?_eq_getElem hwhich]
      generalize members[which] = first at hsplit hnot ⊢
      conv_lhs => rw [← hsplit]
      rw [List.takeWhile_append_of_pos (by simpa using hnot), List.takeWhile_cons_of_neg (by simp),
        List.append_nil]
    · rw [List.getElem?_eq_none (not_lt.mp hwhich), List.take_of_length_le (not_lt.mp hwhich)]
      exact List.takeWhile_eq_self_iff.mpr fun m _ => by simp
  have hrotate : (members.drop which ++ members.take which).Perm
      (members.take which ++ members.drop which) := List.perm_append_comm
  rw [List.take_append_drop] at hrotate
  unfold foreachRandomOrder
  dsimp only
  rw [hbefore]
  exact hrotate

/-! ### The flag of groups -/

variable {bev bev' : Bufferevent} {d : Dir} {what : SuspendFlags} {g : GroupId} {b : BevId}
  {walk : Walk} {s : BevSystem}

/-- The group of a bufferevent. -/
def Bufferevent.group (bev : Bufferevent) : Option GroupId := bev.rateLimiting.bind RateLimit.group

/-- Whether a direction is suspended because of the group. -/
def Bufferevent.Held (bev : Bufferevent) (d : Dir) : Prop := bwGroup ∈ bev.suspended d

/-- The two bufferevents are the same for groups. -/
structure SameGroup (bev bev' : Bufferevent) : Prop where
  group : bev'.group = bev.group
  held : ∀ d, bev'.Held d ↔ bev.Held d

namespace SameGroup

variable {bev0 : Bufferevent}

theorem refl (bev : Bufferevent) : SameGroup bev bev := ⟨rfl, fun _ => Iff.rfl⟩

theorem of_suspended (h : SameGroup bev0 bev) (hgroup : bev'.group = bev.group)
    (hsuspended : bev'.suspended = bev.suspended) : SameGroup bev0 bev' :=
  ⟨hgroup.trans h.group, fun d => by rw [Bufferevent.Held, hsuspended]; exact h.held d⟩

theorem suspend (h : SameGroup bev0 bev) (d : Dir) (hwhat : bwGroup ∉ what) :
    SameGroup bev0 (buffereventSuspend d bev what) := by
  refine ⟨?_, fun x => ?_⟩
  · rw [Bufferevent.group, rateLimiting_suspend]
    exact h.group
  · rw [← h.held x, Bufferevent.Held, mem_suspended_suspend]
    exact or_iff_left fun hin => hwhat hin.2

theorem unsuspend (h : SameGroup bev0 bev) (d : Dir) (hwhat : bwGroup ∉ what) :
    SameGroup bev0 (buffereventUnsuspend d bev what) := by
  refine ⟨?_, fun x => ?_⟩
  · rw [Bufferevent.group, rateLimiting_unsuspend]
    exact h.group
  · rw [← h.held x, Bufferevent.Held, mem_suspended_unsuspend]
    exact and_iff_left fun hin => hwhat hin.2

/-- The limits of the bufferevent itself do not matter to groups. -/
theorem rateStable (bev0 : Bufferevent) : RateStable (SameGroup bev0) where
  suspend d h := h.suspend d (by decide)
  unsuspend d h := h.unsuspend d (by decide)
  timer {bev} _ h := by
    refine h.of_suspended ?_ rfl
    unfold Bufferevent.group
    cases bev.rateLimiting <;> rfl
  alloc h := h.of_suspended rfl rfl
  bucket _ hr h := by
    refine h.of_suspended ?_ rfl
    unfold Bufferevent.group
    rw [hr]
    rfl

theorem refreshed {now : Nat} (hbase : bev.Refreshed now bev') : SameGroup bev bev' :=
  (rateStable bev).refreshed (refl bev) hbase

end SameGroup

@[simp] theorem group_suspend (d : Dir) (bev : Bufferevent) (what : SuspendFlags) :
    (buffereventSuspend d bev what).group = bev.group := by
  rw [Bufferevent.group, rateLimiting_suspend]
  rfl

@[simp] theorem group_unsuspend (d : Dir) (bev : Bufferevent) (what : SuspendFlags) :
    (buffereventUnsuspend d bev what).group = bev.group := by
  rw [Bufferevent.group, rateLimiting_unsuspend]
  rfl

theorem held_suspend (d x : Dir) (bev : Bufferevent) :
    (buffereventSuspend d bev {.bwGroup}).Held x ↔ x = d ∨ bev.Held x := by
  exact mem_suspend_self bev d x

theorem held_unsuspend (d x : Dir) (bev : Bufferevent) :
    (buffereventUnsuspend d bev {.bwGroup}).Held x ↔ x ≠ d ∧ bev.Held x := by
  exact mem_unsuspend_self bev d x

/-! ### Passes over the members -/

/-- A pass visits every member once. -/
theorem passMembers_eq (f : Bufferevent → Bufferevent) (locks : BevId → Bool) {l : List BevId}
    (hl : l.Nodup) (s : BevSystem) : passMembers f locks s l = { s with
      bevs := fun b => if b ∈ l ∧ locks b = true then f (s.bevs b) else s.bevs b } := by
  induction l generalizing s with
  | nil => simp [passMembers]
  | cons m l ih =>
    obtain ⟨hm, hl⟩ := List.nodup_cons.mp hl
    rw [passMembers, ih hl]
    split
    · next hlock =>
      unfold BevSystem.setBev
      congr 1
      funext b
      by_cases hb : b = m
      · subst hb
        simp [hm, hlock]
      · simp [hb]
    next hlock =>
    congr 1
    funext b
    by_cases hb : b = m
    · subst hb
      simp [hlock]
    · simp [hb]

theorem bevGroupSuspend_eq (d : Dir) (hnodup : (s.groups g).members.Nodup) (locks : BevId → Bool) :
    bevGroupSuspend d s g locks = { s.setGroup g { s.groups g with
        suspended := update (s.groups g).suspended d true
        pendingUnsuspend := update (s.groups g).pendingUnsuspend d false } with
      bevs := fun b => if b ∈ (s.groups g).members ∧ locks b = true then
        buffereventSuspend d (s.bevs b) {.bwGroup} else s.bevs b } := by
  unfold bevGroupSuspend
  rw [suspendMembers_eq]
  exact passMembers_eq _ locks hnodup _

theorem bevGroupUnsuspend_eq (d : Dir) (hnodup : (s.groups g).members.Nodup)
    (walk : Walk) : ∃ again : Bool,
    (again = false → ∀ m ∈ (s.groups g).members, walk.locks m = true) ∧
    bevGroupUnsuspend d s g walk = { s.setGroup g { s.groups g with
        suspended := update (s.groups g).suspended d false
        pendingUnsuspend := update (s.groups g).pendingUnsuspend d again } with
      bevs := fun b => if b ∈ (s.groups g).members ∧ walk.locks b = true then
        buffereventUnsuspend d (s.bevs b) {.bwGroup} else s.bevs b } := by
  have hperm := foreachRandomOrder_perm hnodup walk.which
  refine ⟨(foreachRandomOrder (s.groups g).members walk.which).any fun m => !walk.locks m, ?_, ?_⟩
  · simp [hperm.mem_iff]
  unfold bevGroupUnsuspend
  dsimp only
  rw [unsuspendMembers_eq, passMembers_eq _ _ (hperm.nodup_iff.mpr hnodup)]
  simp only [hperm.mem_iff, Bool.false_or]
  unfold BevSystem.setGroup
  simp only [update_self, update_idem]

/-! ### The invariant -/

/-- The member `b` is suspended by its group in direction `d`, or will be as soon as the thread that
lets it join goes on. -/
def GroupState.Waits (s : GroupState) (b : BevId) (d : Dir) : Prop :=
  (s.sys.bevs b).Held d ∨ ∃ suspended, s.joining b = some suspended ∧ suspended d = true

/-- The group is suspended in direction `d`, or will try again to unsuspend its members. -/
def BevSystem.Retries (s : BevSystem) (g : GroupId) (d : Dir) : Prop :=
  (s.groups g).suspended d = true ∨ (s.groups g).pendingUnsuspend d = true

/-- The groups and their members agree, and no member that waits is forgotten. -/
structure Enrolled (s : GroupState) : Prop where
  member : ∀ b g, b ∈ (s.sys.groups g).members ↔ (s.sys.bevs b).group = some g
  nodup : ∀ g, (s.sys.groups g).members.Nodup
  waits : ∀ b d, s.Waits b d → ∃ g, (s.sys.bevs b).group = some g ∧ s.sys.Retries g d

variable {s s' : GroupState}

section
variable (h : Enrolled s) {bev : Bufferevent}
include h

theorem Enrolled.not_waits (hb : (s.sys.bevs b).group = none) (d : Dir) :
    ¬s.Waits b d := fun hw => by
  obtain ⟨g, hg, _⟩ := h.waits b d hw
  cases hb.symm.trans hg

/-- The members of the groups are the same. -/
theorem Enrolled.keep (hgroup : ∀ b, (s'.sys.bevs b).group = (s.sys.bevs b).group)
    (hmembers : ∀ g, (s'.sys.groups g).members = (s.sys.groups g).members)
    (hwaits : ∀ b d, s'.Waits b d → ∃ g, (s.sys.bevs b).group = some g ∧ s'.sys.Retries g d) :
    Enrolled s' := by
  refine ⟨fun b g => ?_, fun g => ?_, fun b d hw => ?_⟩
  · rw [hmembers, hgroup]
    exact h.member b g
  · rw [hmembers]
    exact h.nodup g
  · rw [hgroup]
    exact hwaits b d hw

/-- One bufferevent changes. It stays in its group, and is suspended by it only as long as the group
is suspended or will try again. -/
theorem Enrolled.change (hgroup : bev.group = (s.sys.bevs b).group)
    (hheld : ∀ d, bev.Held d → ∃ g, (s.sys.bevs b).group = some g ∧ s.sys.Retries g d) :
    Enrolled { s with sys := s.sys.setBev b bev } := by
  have hbev := (forall_update_iff s.sys.bevs fun x bev => bev.group = (s.sys.bevs x).group ∧
    ∀ d, bev.Held d → ∃ g, (s.sys.bevs x).group = some g ∧ s.sys.Retries g d).mpr
    ⟨⟨hgroup, hheld⟩, fun x _ => ⟨rfl, fun d hd => h.waits x d (.inl hd)⟩⟩
  exact h.keep (fun x => (hbev x).1) (fun _ => rfl) fun x d hw =>
    hw.elim ((hbev x).2 d) fun hjoin => h.waits x d (.inr hjoin)

theorem Enrolled.setBev (hbev : SameGroup (s.sys.bevs b) bev) :
    Enrolled { s with sys := s.sys.setBev b bev } :=
  h.change hbev.group fun d hd => h.waits b d (.inl ((hbev.held d).mp hd))

/-- A group changes, but not its members. -/
theorem Enrolled.setGroup {grp : RateGroup} (hmembers : grp.members = (s.sys.groups g).members)
    (hretries : ∀ d, s.sys.Retries g d → grp.suspended d = true ∨ grp.pendingUnsuspend d = true) :
    Enrolled { s with sys := s.sys.setGroup g grp } := by
  have hgroup := (forall_update_iff s.sys.groups fun x grp =>
    grp.members = (s.sys.groups x).members ∧ ∀ d, s.sys.Retries x d →
      grp.suspended d = true ∨ grp.pendingUnsuspend d = true).mpr
    ⟨⟨hmembers, hretries⟩, fun _ _ => ⟨rfl, fun _ => id⟩⟩
  refine h.keep (fun _ => rfl) (fun x => (hgroup x).1) fun b d hw => ?_
  obtain ⟨x, hx, hretry⟩ := h.waits b d hw
  exact ⟨x, hx, (hgroup x).2 d hretry⟩

/-- A pass over the members of `g` in direction `d`. A member that waits after it is one of those
for which the group is suspended or will try again. -/
theorem Enrolled.pass {d : Dir} {suspended pending : Bool} {bevs : BevId → Bufferevent}
    (hgroup : ∀ b, (bevs b).group = (s.sys.bevs b).group) (hheld : ∀ b x, (bevs b).Held x →
      (s.sys.bevs b).Held x ∨ (x = d ∧ b ∈ (s.sys.groups g).members)) (hretries : suspended = true ∨
      pending = true ∨ ∀ b ∈ (s.sys.groups g).members, ¬(bevs b).Held d ∧ s.joining b = none) :
    Enrolled { s with sys := { s.sys.setGroup g { s.sys.groups g with
      suspended := update (s.sys.groups g).suspended d suspended
      pendingUnsuspend := update (s.sys.groups g).pendingUnsuspend d pending } with
      bevs := bevs } } := by
  refine h.keep hgroup (fun x => ?_) fun b x hw => ?_
  · by_cases hx : g = x
    · subst hx
      rw [groups_setGroup_self]
    · rw [groups_setGroup_of_ne hx]
  unfold BevSystem.Retries
  by_cases hhere : (s.sys.bevs b).group = some g ∧ x = d
  · obtain ⟨hb, rfl⟩ := hhere
    refine ⟨g, hb, ?_⟩
    rw [groups_setGroup_self]
    simp only [update_self]
    rcases hretries with hs | hp | hnone
    · exact .inl hs
    · exact .inr hp
    · obtain ⟨hnot, hjoining⟩ := hnone b ((h.member b g).mpr hb)
      rcases hw with hheld | ⟨f, hjoin, _⟩
      · exact absurd hheld hnot
      · cases hjoining.symm.trans hjoin
  · -- it waited before, and the flags of its group for this direction are the same
    obtain ⟨y, hy, hretry⟩ := h.waits b x (hw.imp_left fun hb =>
      (hheld b x hb).resolve_right fun hin => hhere ⟨(h.member b g).mp hin.2, hin.1⟩)
    refine ⟨y, hy, ?_⟩
    by_cases hg : g = y
    · subst hg
      have hx : x ≠ d := fun hx => hhere ⟨hy, hx⟩
      rw [groups_setGroup_self]
      simpa only [BevSystem.Retries, update_of_ne hx] using hretry
    · rw [groups_setGroup_of_ne hg]
      exact hretry

/-- A group is suspended in one direction. -/
theorem Enrolled.groupSuspend (d : Dir) (g : GroupId) (locks : BevId → Bool) :
    Enrolled { s with sys := bevGroupSuspend d s.sys g locks } := by
  rw [bevGroupSuspend_eq d (h.nodup g)]
  refine h.pass (fun b => ?_) (fun b x hx => ?_) (.inl rfl)
  · split
    · exact group_suspend ..
    · rfl
  · split at hx
    · next hb => exact ((held_suspend ..).mp hx).symm.imp_right fun hd => ⟨hd, hb.1⟩
    · exact .inl hx

theorem Enrolled.setGroupLimit (g : GroupId) (d : Dir) (limit : Int) :
    Enrolled { s with sys := s.sys.setGroupLimit g d limit } :=
  h.setGroup rfl fun _ => id

section
variable (hwalk : ∀ m, walk.locks m = true → s.joining m = none)
include hwalk

/-- A group is unsuspended in one direction. The members whose lock was not obtained are those for
which it will try again. -/
theorem Enrolled.groupUnsuspend (d : Dir) (g : GroupId) :
    Enrolled { s with sys := bevGroupUnsuspend d s.sys g walk } := by
  obtain ⟨again, hagain, heq⟩ := bevGroupUnsuspend_eq d (h.nodup g) walk
  rw [heq]
  refine h.pass (fun b => ?_) (fun b x hx => .inl ?_) (.inr ?_)
  · split
    · exact group_unsuspend ..
    · rfl
  · split at hx
    · exact ((held_unsuspend ..).mp hx).2
    · exact hx
  cases again with
  | true => exact .inl rfl
  | false =>
    refine .inr fun b hb => ?_
    have hlock := hagain rfl b hb
    rw [if_pos ⟨hb, hlock⟩, held_unsuspend]
    exact ⟨fun hd => hd.1 rfl, hwalk b hlock⟩

/-! ### The steps -/

/-- The end of a change of the limit. -/
theorem Enrolled.settle (d : Dir) (g : GroupId) (out back : Prop) [Decidable out]
    [Decidable back] : Enrolled { s with sys := if out then bevGroupSuspend d s.sys g walk.locks
      else if back then bevGroupUnsuspend d s.sys g walk else s.sys } := by
  split
  · exact h.groupSuspend d g walk.locks
  split
  · exact h.groupUnsuspend hwalk d g
  · exact h

theorem Enrolled.decrementGroupBucket (d : Dir) (g : GroupId) (bytes : Int) :
    Enrolled { s with sys := decrementGroupBucket d s.sys g bytes walk } :=
  (h.setGroupLimit g d _).settle hwalk d g _ _

theorem Enrolled.rateLimitGroupDecrement (d : Dir) (g : GroupId) (decr : Int) :
    Enrolled { s with sys := buffereventRateLimitGroupDecrement d s.sys g decr walk } :=
  (h.setGroupLimit g d _).settle hwalk d g _ _

theorem Enrolled.refillGroupDir (d : Dir) (g : GroupId) :
    Enrolled { s with sys := refillGroupDir d s.sys g walk } := by
  unfold Libevent.refillGroupDir
  dsimp only
  split
  · exact h.groupUnsuspend hwalk d g
  · exact h

theorem Enrolled.charge (b : BevId) (d : Dir) (bytes : Int) :
    Enrolled { s with sys := buffereventDecrementAllBuckets d s.sys b bytes walk } := by
  have hown := h.setBev ((SameGroup.rateStable _).decrementBuckets (.refl (s.sys.bevs b)) d bytes)
  unfold buffereventDecrementAllBuckets
  dsimp only
  split
  · exact hown
  · exact hown.decrementGroupBucket hwalk d _ bytes

end

theorem Enrolled.groupRefillCallback (g : GroupId) {walkRead walkWrite : Walk}
    (hread : ∀ m, walkRead.locks m = true → s.joining m = none)
    (hwrite : ∀ m, walkWrite.locks m = true → s.joining m = none) :
    Partly (bevGroupRefillCallback s.sys g walkRead walkWrite)
      fun sys => Enrolled { s with sys := sys } := by
  refine Yields.bind_any fun tick => ?_
  have hupdate : Enrolled { s with sys := s.sys.setGroup g { s.sys.groups g with
      rateLimit := evTokenBucketUpdate (s.sys.groups g).rateLimit (s.sys.groups g).rateLimitCfg
        tick } } := h.setGroup rfl fun _ => id
  exact (hupdate.refillGroupDir hread .read g).refillGroupDir hwrite .write g

/-- A member of a suspended group finds out. -/
theorem Enrolled.find {d : Dir} (hbev : SameGroup (s.sys.bevs b) bev)
    (hb : (s.sys.bevs b).group = some g) (hsuspended : (s.sys.groups g).suspended d = true) :
    Enrolled { s with sys := s.sys.setBev b (buffereventSuspend d bev {.bwGroup}) } := by
  refine h.change ((group_suspend ..).trans hbev.group) fun dir hheld => ?_
  rw [held_suspend, hbev.held] at hheld
  rcases hheld with rfl | hold
  · exact ⟨g, hb, .inl hsuspended⟩
  · exact h.waits b dir (.inl hold)

theorem Enrolled.getRlimMax (b : BevId) (d : Dir) :
    Partly (buffereventGetRlimMax d s.sys.now s.sys.groups (s.sys.bevs b))
      fun r => Enrolled { s with sys := s.sys.setBev b r.2 } := by
  refine (buffereventGetRlimMax_cases d s.sys.now s.sys.groups (s.sys.bevs b)).mono ?_
  rintro ⟨m, bev⟩ ⟨base, hbase, ⟨_, rfl⟩ | ⟨g, hg, ⟨hsuspended, heq⟩ | ⟨_, rfl⟩⟩⟩
  · exact h.setBev (.refreshed hbase)
  · obtain ⟨_, rfl⟩ := Prod.mk.inj heq
    exact h.find (.refreshed hbase) hg hsuspended
  · exact h.setBev (.refreshed hbase)

end

/-! ### Joining and leaving -/

/-- The bufferevent, not suspended by any group. -/
def Bufferevent.released (bev : Bufferevent) : Bufferevent :=
  buffereventUnsuspendWrite (buffereventUnsuspendRead bev {.bwGroup}) {.bwGroup}

@[simp] theorem rateLimiting_released (bev : Bufferevent) :
    bev.released.rateLimiting = bev.rateLimiting :=
  (rateLimiting_unsuspend .write _ _).trans (rateLimiting_unsuspend .read _ _)

theorem not_held_released (bev : Bufferevent) (d : Dir) : ¬bev.released.Held d := by
  intro h
  have hwrite := (held_unsuspend .write d _).mp h
  have hread := (held_unsuspend .read d _).mp hwrite.2
  cases d with
  | read => exact hread.1 rfl
  | write => exact hwrite.1 rfl

/-- What `bufferevent_remove_from_rate_limit_group` does. -/
theorem removeFromGroup_cases (s : BevSystem) (b : BevId) :
    ((s.bevs b).group = none ∧ buffereventRemoveFromRateLimitGroup s b true =
      s.setBev b (s.bevs b).released) ∨
    ∃ rlim g, (s.bevs b).rateLimiting = some rlim ∧ rlim.group = some g ∧
      buffereventRemoveFromRateLimitGroup s b true =
        (((s.setBev b { s.bevs b with rateLimiting := some { rlim with group := none } }).setGroup
          g { s.groups g with members := (s.groups g).members.erase b }).setBev b
          ({ s.bevs b with rateLimiting := some { rlim with group := none } }).released) := by
  unfold buffereventRemoveFromRateLimitGroup Bufferevent.group
  cases hr : (s.bevs b).rateLimiting with
  | none => exact .inl ⟨rfl, rfl⟩
  | some rlim =>
    dsimp only
    cases hg : rlim.group with
    | none => exact .inl ⟨hg, rfl⟩
    | some g =>
      refine .inr ⟨rlim, g, rfl, hg, ?_⟩
      dsimp only
      generalize hleft : (s.setBev b { s.bevs b with
        rateLimiting := some { rlim with group := none } }).setGroup g
        { s.groups g with members := (s.groups g).members.erase b } = left
      have hbev : left.bevs b =
          { s.bevs b with rateLimiting := some { rlim with group := none } } := by
        rw [← hleft]
        exact bevs_setBev_self ..
      rw [← hbev]
      rfl

/-- The bufferevent `b` enters the group `g` or leaves it. It waits for nothing then, unless it is
in the group and the group is suspended. -/
theorem Enrolled.of_move (h : Enrolled s)
    (hother : ∀ x, b ≠ x → s'.sys.bevs x = s.sys.bevs x ∧ s'.joining x = s.joining x)
    (hgroups : s'.sys.groups = update s.sys.groups g { s.sys.groups g with members := members })
    (hnodup : members.Nodup) (hmembers : ∀ x, b ≠ x → (x ∈ members ↔ x ∈ (s.sys.groups g).members))
    (hb : b ∈ members ↔ (s'.sys.bevs b).group = some g)
    (helse : ∀ y, g ≠ y → (s.sys.bevs b).group ≠ some y ∧ (s'.sys.bevs b).group ≠ some y) (hwaits :
      ∀ d, s'.Waits b d → (s'.sys.bevs b).group = some g ∧ (s.sys.groups g).suspended d = true) :
    Enrolled s' := by
  have hself : s'.sys.groups g = { s.sys.groups g with members := members } := by
    rw [hgroups, update_self]
  have hrest : ∀ y, g ≠ y → s'.sys.groups y = s.sys.groups y := fun y hy => by
    rw [hgroups, update_of_ne hy.symm]
  have hbefore : ∀ x d, b ≠ x → s'.Waits x d → s.Waits x d := fun x d hx hw => by
    rw [GroupState.Waits, (hother x hx).1, (hother x hx).2] at hw
    exact hw
  refine ⟨fun x y => ?_, fun y => ?_, fun x d hw => ?_⟩
  · by_cases hy : g = y
    · subst hy
      rw [hself]
      by_cases hx : b = x
      · subst hx
        exact hb
      · rw [(hother x hx).1, ← h.member x g]
        exact hmembers x hx
    · rw [hrest y hy, h.member x y]
      by_cases hx : b = x
      · subst hx
        exact iff_of_false (helse y hy).1 (helse y hy).2
      · rw [(hother x hx).1]
  · by_cases hy : g = y
    · subst hy
      rw [hself]
      exact hnodup
    · rw [hrest y hy]
      exact h.nodup y
  · unfold BevSystem.Retries
    by_cases hx : b = x
    · subst hx
      obtain ⟨hg, hsuspended⟩ := hwaits d hw
      exact ⟨g, hg, .inl (by rw [hself]; exact hsuspended)⟩
    obtain ⟨y, hy, hretry⟩ := h.waits x d (hbefore x d hx hw)
    refine ⟨y, by rw [(hother x hx).1]; exact hy, ?_⟩
    by_cases hg : g = y
    · subst hg
      rw [hself]
      exact hretry
    · rw [hrest y hg]
      exact hretry

theorem Enrolled.leave (h : Enrolled s) (hb : s.joining b = none) :
    Enrolled { s with sys := buffereventRemoveFromRateLimitGroup s.sys b true } := by
  rcases removeFromGroup_cases s.sys b with ⟨hnone, heq⟩ | ⟨rlim, g, hr, hg, heq⟩
  · rw [heq]
    refine h.change ?_ fun d hheld => absurd hheld (not_held_released _ d)
    rw [Bufferevent.group, rateLimiting_released]
    rfl
  have hgroup : (s.sys.bevs b).group = some g := by
    rw [Bufferevent.group, hr]
    exact hg
  have hself : (buffereventRemoveFromRateLimitGroup s.sys b true).bevs b =
      ({ s.sys.bevs b with rateLimiting := some { rlim with group := none } }).released := by
    rw [heq, bevs_setBev_self]
  have hleft : ((buffereventRemoveFromRateLimitGroup s.sys b true).bevs b).group = none := by
    rw [hself, Bufferevent.group, rateLimiting_released]
    rfl
  refine h.of_move (b := b) (fun x hx => ⟨?_, rfl⟩) (by rw [heq]; rfl) ((h.nodup g).erase b)
    (fun x hx => List.mem_erase_of_ne hx.symm)
    (iff_of_false (h.nodup g).not_mem_erase (by rw [hleft]; simp))
    (fun y hy => ⟨by rw [hgroup]; simpa using hy, by rw [hleft]; simp⟩) fun d hw => ?_
  · rw [heq, bevs_setBev_of_ne hx]
    exact bevs_setBev_of_ne hx ..
  rcases hw with hheld | ⟨suspended, hjoin, _⟩
  · rw [hself] at hheld
    exact absurd hheld (not_held_released _ d)
  · cases hb.symm.trans hjoin

theorem SameGroup.ensureRateLimit (bev : Bufferevent) : SameGroup bev (ensureRateLimit bev).2 := by
  rcases ensureRateLimit_cases bev with ⟨rlim, _, heq⟩ | ⟨hr, heq⟩ | ⟨_, heq⟩
  · rw [heq]
    exact SameGroup.refl bev
  · rw [heq]
    refine (SameGroup.refl bev).of_suspended ?_ rfl
    unfold Bufferevent.group
    rw [hr]
    rfl
  · rw [heq]
    exact (SameGroup.refl bev).of_suspended rfl rfl

/-- The first part of `bufferevent_add_to_rate_limit_group`: nothing, or the bufferevent is in no
group any more and enters this one. -/
theorem joinRateLimitGroup_cases (s : BevSystem) (b : BevId) (g : GroupId) :
    ∃ bev, SameGroup (s.bevs b) bev ∧ (joinRateLimitGroup s b g = (none, s.setBev b bev) ∨
      ∃ t rlim, (t = s.setBev b bev ∨
          t = buffereventRemoveFromRateLimitGroup (s.setBev b bev) b true) ∧
        (t.bevs b).rateLimiting = some rlim ∧ rlim.group = none ∧ joinRateLimitGroup s b g =
          (some (enterRateLimitGroup t b g).1, (enterRateLimitGroup t b g).2)) := by
  refine ⟨(ensureRateLimit (s.bevs b)).2, SameGroup.ensureRateLimit _, ?_⟩
  have hensure : ∀ rlim bev, ensureRateLimit (s.bevs b) = (some rlim, bev) →
      bev.rateLimiting = some rlim := fun rlim bev heq => by
    rcases ensureRateLimit_cases (s.bevs b) with ⟨r, hr, heq'⟩ | ⟨_, heq'⟩ | ⟨_, heq'⟩
    · obtain ⟨hr', rfl⟩ := Prod.mk.inj (heq'.symm.trans heq)
      exact hr.trans hr'
    · obtain ⟨hr', rfl⟩ := Prod.mk.inj (heq'.symm.trans heq)
      exact hr'
    · cases (Prod.mk.inj (heq'.symm.trans heq)).1
  unfold joinRateLimitGroup
  cases heq : ensureRateLimit (s.bevs b) with
  | mk found bev =>
    cases found with
    | none => exact .inl rfl
    | some rlim =>
      have hrlim := hensure rlim bev heq
      dsimp only
      split
      · exact .inl rfl
      split
      · next hsome =>
        -- it leaves its old group first
        rcases removeFromGroup_cases (s.setBev b bev) b with ⟨hnone, _⟩ | ⟨r, g', _, _, hleft⟩
        · rw [bevs_setBev_self, Bufferevent.group, hrlim] at hnone
          rw [show rlim.group = none from hnone] at hsome
          cases hsome
        · refine .inr ⟨_, { r with group := none }, .inr rfl, ?_, rfl, rfl⟩
          rw [hleft, bevs_setBev_self, rateLimiting_released]
      · next hnone =>
        refine .inr ⟨_, rlim, .inl rfl, ?_, ?_, rfl⟩
        · rw [bevs_setBev_self]
          exact hrlim
        · simpa using hnone

/-- A bufferevent that is in no group enters one. Its thread suspends it next, when the group is
suspended. -/
theorem Enrolled.enter (h : Enrolled s) {rlim : RateLimit}
    (hr : (s.sys.bevs b).rateLimiting = some rlim) (hg : rlim.group = none) (g : GroupId) :
    Enrolled { sys := (enterRateLimitGroup s.sys b g).2
               joining := update s.joining b (some (enterRateLimitGroup s.sys b g).1) } := by
  have hnone : (s.sys.bevs b).group = none := by
    rw [Bufferevent.group, hr]
    exact hg
  have hself : (enterRateLimitGroup s.sys b g).2.bevs b =
      { s.sys.bevs b with rateLimiting := some { rlim with group := some g } } := by
    unfold enterRateLimitGroup
    dsimp only
    rw [hr]
    exact bevs_setBev_self ..
  have hgroup : ((enterRateLimitGroup s.sys b g).2.bevs b).group = some g := by
    rw [hself]
    rfl
  have hnot : b ∉ (s.sys.groups g).members := fun hmem => by
    cases hnone.symm.trans ((h.member b g).mp hmem)
  refine h.of_move (b := b) (fun x hx => ⟨bevs_setBev_of_ne hx .., update_of_ne hx.symm ..⟩)
    rfl (List.nodup_cons.mpr ⟨hnot, h.nodup g⟩)
    (fun x hx => List.mem_cons.trans (or_iff_right hx.symm))
    (iff_of_true List.mem_cons_self hgroup)
    (fun y hy => ⟨by rw [hnone]; simp, by rw [hgroup]; simpa using hy⟩) fun d hw => ⟨hgroup, ?_⟩
  -- it was not suspended by any group, and the flag that its thread has read is that of the group
  rcases hw with hheld | ⟨suspended, hjoin, hd⟩
  · rw [hself] at hheld
    exact absurd (.inl hheld) (h.not_waits hnone d)
  dsimp only at hjoin
  rw [update_self] at hjoin
  cases hjoin
  exact hd

theorem Enrolled.joinBegin (h : Enrolled s) (hb : s.joining b = none) (g : GroupId) :
    Enrolled { sys := (joinRateLimitGroup s.sys b g).2
               joining := update s.joining b (joinRateLimitGroup s.sys b g).1 } := by
  obtain ⟨bev, hbev, heq | ⟨t, rlim, ht, hr, hg, heq⟩⟩ := joinRateLimitGroup_cases s.sys b g
  · have hsame : update s.joining b none = s.joining := by
      rw [← hb, update_eq_self]
    rw [heq]
    rw [hsame]
    exact h.setBev hbev
  have hset := h.setBev hbev
  have hstart : Enrolled { s with sys := t } := by
    rcases ht with rfl | rfl
    · exact hset
    · exact hset.leave hb
  rw [heq]
  exact hstart.enter hr hg g

/-- What the rest of `bufferevent_add_to_rate_limit_group` does to the bufferevent. -/
theorem suspendJoined_spec (s : BevSystem) (b : BevId) (suspended : Dir → Bool) :
    ∃ bev, suspendJoined s b suspended = s.setBev b bev ∧ bev.group = (s.bevs b).group ∧
      ∀ d, bev.Held d ↔ (s.bevs b).Held d ∨ suspended d = true := by
  refine ⟨_, rfl, ?_, fun d => ?_⟩
  · cases suspended .read <;> cases suspended .write <;>
      simp [buffereventSuspendRead, buffereventSuspendWrite]
  · cases hread : suspended .read <;> cases hwrite : suspended .write <;> cases d <;>
      simp [buffereventSuspendRead, buffereventSuspendWrite, held_suspend, hread, hwrite]

/-- The thread that let the bufferevent join goes on. -/
theorem Enrolled.joinEnd (h : Enrolled s) {suspended : Dir → Bool}
    (hb : s.joining b = some suspended) :
    Enrolled { sys := suspendJoined s.sys b suspended
               joining := update s.joining b none } := by
  obtain ⟨bev, heq, hgroup, hheld⟩ := suspendJoined_spec s.sys b suspended
  rw [heq]
  have hset := h.change hgroup fun d hd =>
    h.waits b d (((hheld d).mp hd).imp_right fun hs => ⟨suspended, hb, hs⟩)
  refine hset.keep (fun _ => rfl) (fun _ => rfl) fun x d hw => hset.waits x d (hw.imp_right ?_)
  rintro ⟨f, hjoin, hd⟩
  dsimp only at hjoin
  rw [update_apply] at hjoin
  split at hjoin
  · cases hjoin
  · exact ⟨f, hjoin, hd⟩

/-! ### Runs -/

/-- A step keeps the groups and their members in agreement. -/
theorem enrolled_step (h : Enrolled s) {a : GroupAction} (ha : Exclusive s a) :
    Partly (groupStep s a) Enrolled := by
  cases a with
  | getMax b d => exact Yields.map (h.getRlimMax b d)
  | charge b d bytes walk => exact h.charge ha.2 b d bytes
  | decrementGroup g d decr walk => exact h.rateLimitGroupDecrement ha d g decr
  | refillGroup g walkRead walkWrite =>
    exact Yields.map (h.groupRefillCallback g (fun m => (ha m).1) fun m => (ha m).2)
  | setGroupCfg g cfg =>
    refine h.setGroup ?_ fun d hd => ?_ <;>
    · unfold buffereventRateLimitGroupSetCfg buffereventRateLimitGroupSetMinShare
      dsimp only
      split <;> first | rfl | exact hd
  | setMinShare g share =>
    refine h.setGroup ?_ fun d hd => ?_ <;>
    · unfold buffereventRateLimitGroupSetMinShare
      split <;> first | rfl | exact hd
  | joinBegin b g => exact h.joinBegin ha g
  | joinEnd b =>
    cases hb : s.joining b with
    | none =>
      simp only [groupStep, hb]
      exact h
    | some suspended =>
      simp only [groupStep, hb]
      exact h.joinEnd hb
  | leave b => exact h.leave ha
  | suspend b d what => exact h.setBev ((SameGroup.refl _).suspend d ha.2)
  | unsuspend b d what => exact h.setBev ((SameGroup.refl _).unsuspend d ha.2)
  | refill b =>
    exact Yields.map (((SameGroup.rateStable _).refillCallback (.refl (s.sys.bevs b))
      s.sys.now).mono fun bev hbev => h.setBev hbev)
  | elapse msec =>
    exact (h.keep (fun _ => rfl) (fun _ => rfl) h.waits :
      Enrolled { s with sys := { s.sys with now := s.sys.now + msec } })

/-- A pass that gets the lock of a member unsuspends it. -/
theorem not_held_groupUnsuspend {sys : BevSystem} (hnodup : (sys.groups g).members.Nodup)
    (hb : b ∈ (sys.groups g).members) (hlock : walk.locks b = true) (d : Dir) :
    ¬((bevGroupUnsuspend d sys g walk).bevs b).Held d := by
  obtain ⟨again, _, heq⟩ := bevGroupUnsuspend_eq d hnodup walk
  rw [heq]
  dsimp only
  rw [if_pos ⟨hb, hlock⟩, held_unsuspend]
  exact fun hd => hd.1 rfl

/-- Nobody is in a group yet. -/
structure GroupState.Fresh (s : GroupState) : Prop where
  bevs : s.sys.Fresh
  members : ∀ g, (s.sys.groups g).members = []
  joining : ∀ b, s.joining b = none

theorem enrolled_fresh (h : s.Fresh) : Enrolled s := by
  have hgroup : ∀ b, (s.sys.bevs b).group = none := fun b => by
    rw [h.bevs b]
    rfl
  have hwaits : ∀ b d, ¬s.Waits b d := fun b d hw => by
    rcases hw with hheld | ⟨suspended, hjoin, _⟩
    · rw [h.bevs b, Bufferevent.Held] at hheld
      simp at hheld
    · cases (h.joining b).symm.trans hjoin
  refine ⟨fun b g => ?_, fun g => ?_, fun b d hw => absurd hw (hwaits b d)⟩
  · rw [h.members g, hgroup b]
    simp
  · rw [h.members g]
    exact List.nodup_nil

/-- Groups do not strand a member, whatever the threads do: every walk visits every member exactly
once; a member that is still suspended by a group that is not suspended is retried, and the refill
that gets its lock unsuspends it. -/
theorem groupRun_unstranded {as : List GroupAction} (hfresh : s.Fresh)
    (hsteps : Meets groupStep Exclusive s as) (hrun : run groupStep s as = .ok s') :
    (∀ g which, (foreachRandomOrder (s'.sys.groups g).members which).Nodup ∧
      ∀ b, b ∈ foreachRandomOrder (s'.sys.groups g).members which ↔ b ∈ (s'.sys.groups g).members) ∧
    ∀ g d b, (s'.sys.groups g).suspended d = false → b ∈ (s'.sys.groups g).members →
      bwGroup ∈ (s'.sys.bevs b).suspended d →
      (s'.sys.groups g).pendingUnsuspend d = true ∧ ∀ walk : Walk, walk.locks b = true →
        bwGroup ∉ ((refillGroupDir d s'.sys g walk).bevs b).suspended d := by
  have h : Enrolled s' := (Yields.run (E := fun _ => True) (fun s a hs ha => enrolled_step hs ha)
    (enrolled_fresh hfresh) hsteps).of_ok hrun
  refine ⟨fun g which => ?_, fun g d b hs hb hheld => ?_⟩
  · have hperm := foreachRandomOrder_perm (h.nodup g) which
    exact ⟨hperm.nodup_iff.mpr (h.nodup g), fun b => hperm.mem_iff⟩
  obtain ⟨x, hx, hretry⟩ := h.waits b d (.inl hheld)
  obtain rfl : g = x := Option.some.inj (((h.member b g).mp hb).symm.trans hx)
  have hpending := hretry.resolve_left (by simp [hs])
  refine ⟨hpending, fun walk hlock => ?_⟩
  unfold refillGroupDir
  rw [if_pos (.inl hpending)]
  exact not_held_groupUnsuspend (h.nodup g) hb hlock d

/-- Two threads: while bufferevent 1 joins, the group is unsuspended, suspended and unsuspended
again, and the walks do not get the lock of bufferevent 1. -/
def twoThreads : List GroupAction :=
  [.joinBegin 0 0, .joinEnd 0, .decrementGroup 0 .read (-3) ⟨fun m => m = 0, 0⟩, .joinBegin 1 0,
    .decrementGroup 0 .read 5 ⟨fun m => m = 0, 1⟩, .decrementGroup 0 .read (-9) ⟨fun _ => false, 1⟩,
    .joinEnd 1]

/-- A member that could not be locked stays suspended, and the group knows that. -/
theorem groupRun_unstranded_twoThreads : ∃ s', run groupStep { sys := freshSystem } twoThreads =
      .ok s' ∧ (s'.sys.groups 0).suspended .read = false ∧
    bwGroup ∈ (s'.sys.bevs 0).suspended .read ∧
    (s'.sys.groups 0).pendingUnsuspend .read = true := by
  have hzero : ∀ (s : GroupState), s.joining 0 = none → ∀ m : BevId, decide (m = 0) = true →
      s.joining m = none := fun s hs m hm => by
    rw [of_decide_eq_true hm]
    exact hs
  have hfresh : GroupState.Fresh { sys := freshSystem } :=
    ⟨fun _ => rfl, fun _ => rfl, fun _ => rfl⟩
  have hsteps : Meets groupStep Exclusive { sys := freshSystem } twoThreads :=
    Meets.cons rfl rfl (Meets.cons trivial rfl (Meets.cons (hzero _ rfl) rfl (Meets.cons rfl rfl
      (Meets.cons (hzero _ rfl) rfl (Meets.cons (fun m hm => by cases hm) rfl
        (Meets.cons trivial rfl trivial))))))
  refine ⟨_, rfl, rfl, ?_, ?_⟩
  · decide
  · exact ((groupRun_unstranded hfresh hsteps rfl).2 0 .read 0 rfl (by decide) (by decide)).1

end Libevent
