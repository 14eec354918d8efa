import Mathlib.Logic.Relation
import Libevent.Proofs.Bufferevent.RateLimit

/-!
# `Libevent.Proofs.Bufferevent.Group`: what groups and callbacks do to the bufferevents

The functions for groups change bufferevents in few ways (`GroupMove`), and groups: their results
are at the end of a `GroupPath`. `bufferevent_readcb` and `bufferevent_writecb` change the
bufferevent that they are for as `IoMove` says, and call those functions: they take an `IoPath`
(`readcb_path`, `writecb_path`).

`BevSystem.All P s`: every bufferevent satisfies `P`, which may depend on which one it is. A `P`
that the moves keep is kept by all these functions.
-/

namespace Libevent

open Lib Function Relation

variable {P : BevId → Bufferevent → Prop} {s t u : BevSystem} {b : BevId} {bev base : Bufferevent}
  {d : Dir}

/-- Every bufferevent satisfies `P`. -/
def BevSystem.All (P : BevId → Bufferevent → Prop) (s : BevSystem) : Prop := ∀ b, P b (s.bevs b)

@[simp] theorem bevs_setBev_self (s : BevSystem) (b : BevId) (bev : Bufferevent) :
    (s.setBev b bev).bevs b = bev := by
  show update s.bevs b bev b = bev
  rw [update_self]

theorem bevs_setBev_of_ne {b x : BevId} (hx : x ≠ b) (s : BevSystem) (bev : Bufferevent) :
    (s.setBev x bev).bevs b = s.bevs b := by
  show update s.bevs x bev b = s.bevs b
  rw [update_of_ne hx.symm]

theorem setBev_setBev (s : BevSystem) (b : BevId) (bev bev' : Bufferevent) :
    (s.setBev b bev).setBev b bev' = s.setBev b bev' := by
  unfold BevSystem.setBev
  rw [update_idem]

theorem setBev_self (s : BevSystem) (b : BevId) : s.setBev b (s.bevs b) = s := by
  unfold BevSystem.setBev
  rw [update_eq_self]

@[simp] theorem groups_setGroup_self (s : BevSystem) (g : GroupId) (grp : RateGroup) :
    (s.setGroup g grp).groups g = grp := by
  show update s.groups g grp g = grp
  rw [update_self]

theorem groups_setGroup_of_ne {g x : GroupId} (hx : x ≠ g) (s : BevSystem) (grp : RateGroup) :
    (s.setGroup x grp).groups g = s.groups g := by
  show update s.groups x grp g = s.groups g
  rw [update_of_ne hx.symm]

theorem BevSystem.All.setBev (h : s.All P) {bev : Bufferevent} (b : BevId) (hbev : P b bev) :
    (s.setBev b bev).All P := by
  intro x
  by_cases hx : b = x
  · subst hx
    rw [bevs_setBev_self]
    exact hbev
  · rw [bevs_setBev_of_ne hx]
    exact h x

/-- A call that changes one bufferevent and can fault. -/
theorem BevSystem.All.tryBev {α : Type} (h : s.All P) (b : BevId)
    {r : Except BevFault (α × Bufferevent)} (hr : Partly r fun r => P b r.2) :
    Partly (s.tryBev b r) (BevSystem.All P) :=
  Yields.map (hr.mono fun _ hbev => h.setBev b hbev)

theorem BevSystem.All.setGroup (h : s.All P) (g : GroupId) (grp : RateGroup) :
    (s.setGroup g grp).All P := h

/-! ### Groups -/

/-- A pass over the members of a group: `f` is done to those whose lock is obtained. -/
def passMembers (f : Bufferevent → Bufferevent) (locks : BevId → Bool) :
    BevSystem → List BevId → BevSystem
  | s, [] => s
  | s, m :: l => passMembers f locks (if locks m then s.setBev m (f (s.bevs m)) else s) l

theorem suspendMembers_eq (d : Dir) (locks : BevId → Bool) (s : BevSystem) (l : List BevId) :
    suspendMembers d locks s l =
      passMembers (fun bev => buffereventSuspend d bev {.bwGroup}) locks s l := by
  induction l generalizing s with
  | nil => rfl
  | cons m l ih => exact ih _

/-- `again` is set when a lock was not obtained. -/
theorem unsuspendMembers_eq (d : Dir) (locks : BevId → Bool) (again : Bool) (s : BevSystem)
    (l : List BevId) : unsuspendMembers d locks again s l = (again || l.any fun m => !locks m,
      passMembers (fun bev => buffereventUnsuspend d bev {.bwGroup}) locks s l) := by
  induction l generalizing again s with
  | nil => simp [unsuspendMembers, passMembers]
  | cons m l ih => cases hlock : locks m <;> simp [unsuspendMembers, passMembers, ih, hlock]

/-- One thing that groups do to a bufferevent. -/
inductive GroupMove : Bufferevent → Bufferevent → Prop
  | suspend (d : Dir) (bev : Bufferevent) : GroupMove bev (buffereventSuspend d bev {.bwGroup})
  | unsuspend (d : Dir) (bev : Bufferevent) : GroupMove bev (buffereventUnsuspend d bev {.bwGroup})
  | group {bev : Bufferevent} {rlim : RateLimit} (g : Option GroupId)
      (hr : bev.rateLimiting = some rlim) :
      GroupMove bev { bev with rateLimiting := some { rlim with group := g } }
  | alloc (bev : Bufferevent) : GroupMove bev { bev with mm := bev.mm.alloc.2 }
  | create {bev : Bufferevent} (hr : bev.rateLimiting = none) :
      GroupMove bev { bev with rateLimiting := some {} }

inductive GroupPath : BevSystem → BevSystem → Prop
  | refl (s : BevSystem) : GroupPath s s
  | bev {s t : BevSystem} {bev : Bufferevent} (b : BevId) (hpath : GroupPath s t)
      (hmoves : ReflTransGen GroupMove (t.bevs b) bev) : GroupPath s (t.setBev b bev)
  | group {s t : BevSystem} (g : GroupId) (grp : RateGroup) (hpath : GroupPath s t) :
      GroupPath s (t.setGroup g grp)

/-- What groups do to a bufferevent keeps `P`. -/
def GroupStable (P : BevId → Bufferevent → Prop) : Prop :=
  ∀ b bev bev', GroupMove bev bev' → P b bev → P b bev'

/-- What one move keeps, several keep. -/
theorem keeps_of_moves {R : Bufferevent → Bufferevent → Prop} {Q : Bufferevent → Prop}
    (hR : ∀ bev bev', R bev bev' → Q bev → Q bev') (hmoves : ReflTransGen R base bev)
    (h : Q base) : Q bev := by
  induction hmoves with
  | refl => exact h
  | tail _ hmove ih => exact hR _ _ hmove ih

namespace GroupPath

theorem trans (hst : GroupPath s t) (htu : GroupPath t u) : GroupPath s u := by
  induction htu with
  | refl => exact hst
  | bev b _ hmoves ih => exact .bev b ih hmoves
  | group g grp _ ih => exact .group g grp ih

theorem all (hP : GroupStable P) (hpath : GroupPath s t) (h : s.All P) : t.All P := by
  induction hpath with
  | refl => exact h
  | bev b _ hmoves ih => exact ih.setBev b (keeps_of_moves (hP b) hmoves (ih b))
  | group g grp _ ih => exact ih.setGroup g grp

/-- Time does not pass. -/
theorem now (hpath : GroupPath s t) : t.now = s.now := by
  induction hpath with
  | refl => rfl
  | bev _ _ _ ih => exact ih
  | group _ _ _ ih => exact ih

theorem move (s : BevSystem) (b : BevId) (hmove : GroupMove (s.bevs b) bev) :
    GroupPath s (s.setBev b bev) :=
  .bev b (.refl s) (.single hmove)

theorem passMembers {f : Bufferevent → Bufferevent} (hf : ∀ bev, GroupMove bev (f bev))
    (locks : BevId → Bool) :
    ∀ (l : List BevId) (s : BevSystem), GroupPath s (passMembers f locks s l)
  | [], s => .refl s
  | m :: l, s => by
      refine GroupPath.trans ?_ (passMembers hf locks l _)
      split
      · exact move s m (hf _)
      · exact .refl s

theorem bevGroupSuspend (d : Dir) (s : BevSystem) (g : GroupId) (locks : BevId → Bool) :
    GroupPath s (bevGroupSuspend d s g locks) := by
  unfold Libevent.bevGroupSuspend
  rw [suspendMembers_eq]
  exact (GroupPath.group g _ (.refl s)).trans (passMembers (.suspend d) locks _ _)

theorem bevGroupUnsuspend (d : Dir) (s : BevSystem) (g : GroupId) (walk : Walk) :
    GroupPath s (bevGroupUnsuspend d s g walk) := by
  unfold Libevent.bevGroupUnsuspend
  dsimp only
  rw [unsuspendMembers_eq]
  exact .group g _ ((GroupPath.group g _ (.refl s)).trans
    (passMembers (.unsuspend d) walk.locks _ _))

/-- The end of a change of the limit. -/
theorem settle (hpath : GroupPath s t) (d : Dir) (g : GroupId) (walk : Walk) (out back : Prop)
    [Decidable out] [Decidable back] : GroupPath s (if out then
      Libevent.bevGroupSuspend d t g walk.locks
      else if back then Libevent.bevGroupUnsuspend d t g walk else t) := by
  split
  · exact hpath.trans (bevGroupSuspend d t g walk.locks)
  split
  · exact hpath.trans (bevGroupUnsuspend d t g walk)
  · exact hpath

theorem decrementGroupBucket (d : Dir) (s : BevSystem) (g : GroupId) (bytes : Int) (walk : Walk) :
    GroupPath s (decrementGroupBucket d s g bytes walk) :=
  settle (.group g _ (.refl s)) d g walk _ _

theorem rateLimitGroupDecrement (d : Dir) (s : BevSystem) (g : GroupId) (decr : Int)
    (walk : Walk) : GroupPath s (buffereventRateLimitGroupDecrement d s g decr walk) :=
  settle (.group g _ (.refl s)) d g walk _ _

theorem refillGroupDir (d : Dir) (s : BevSystem) (g : GroupId) (walk : Walk) :
    GroupPath s (refillGroupDir d s g walk) := by
  unfold Libevent.refillGroupDir
  dsimp only
  split
  · exact bevGroupUnsuspend d s g walk
  · exact .refl s

theorem groupRefillCallback (s : BevSystem) (g : GroupId) (walkRead walkWrite : Walk) :
    Partly (bevGroupRefillCallback s g walkRead walkWrite) (GroupPath s) := by
  exact Yields.bind_any fun tick => (GroupPath.group g _ (.refl s)).trans
    ((refillGroupDir .read _ g walkRead).trans (refillGroupDir .write _ g walkWrite))

theorem removeFromGroup (s : BevSystem) (b : BevId) :
    GroupPath s (buffereventRemoveFromRateLimitGroup s b true) := by
  have hreleased : ∀ left, GroupPath s left → GroupPath s (left.setBev b
      (buffereventUnsuspendWrite (buffereventUnsuspendRead (left.bevs b) {.bwGroup})
        {.bwGroup})) := fun left hleft =>
    .bev b hleft ((ReflTransGen.single (.unsuspend .read _)).tail (.unsuspend .write _))
  unfold buffereventRemoveFromRateLimitGroup
  refine hreleased _ ?_
  cases hr : (s.bevs b).rateLimiting with
  | none => exact .refl s
  | some rlim =>
    dsimp only
    cases rlim.group with
    | none => exact .refl s
    | some g => exact .group g _ (move s b (.group none hr))

theorem enterGroup (s : BevSystem) (b : BevId) (g : GroupId) :
    GroupPath s (enterRateLimitGroup s b g).2 := by
  refine .group g _ ?_
  cases hr : (s.bevs b).rateLimiting with
  | none =>
    rw [Option.map_none, ← hr, setBev_self]
    exact .refl s
  | some rlim => exact move s b (.group (some g) hr)

theorem ensureRateLimit (bev : Bufferevent) :
    ReflTransGen GroupMove bev (ensureRateLimit bev).2 := by
  rcases ensureRateLimit_cases bev with ⟨rlim, _, heq⟩ | ⟨hr, heq⟩ | ⟨_, heq⟩
  · rw [heq]
  · rw [heq]
    have hcreate : GroupMove { bev with mm := bev.mm.alloc.2 } _ := .create hr
    exact (ReflTransGen.single (.alloc bev)).tail hcreate
  · rw [heq]
    exact .single (.alloc bev)

section
variable (s b)

theorem joinRateLimitGroup (g : GroupId) : GroupPath s (joinRateLimitGroup s b g).2 := by
  have hstart : GroupPath s (s.setBev b (Libevent.ensureRateLimit (s.bevs b)).2) :=
    .bev b (.refl s) (ensureRateLimit (s.bevs b))
  unfold Libevent.joinRateLimitGroup
  split
  · next bev heq =>
    rw [heq] at hstart
    exact hstart
  next rlim bev heq =>
  rw [heq] at hstart
  split
  · exact hstart
  refine hstart.trans ?_
  split
  · exact (removeFromGroup _ b).trans (enterGroup _ b g)
  · exact enterGroup _ b g

theorem suspendJoined (suspended : Dir → Bool) : GroupPath s (suspendJoined s b suspended) := by
  have hdir : ∀ (c : Bool) (d : Dir) (bev : Bufferevent), ReflTransGen GroupMove bev
      (if c then buffereventSuspend d bev {.bwGroup} else bev) := fun c d bev => by
    split
    · exact .single (.suspend d bev)
    · exact .refl
  exact .bev b (.refl s) ((hdir (suspended .read) .read _).trans (hdir (suspended .write) .write _))

theorem addToGroup (g : GroupId) : GroupPath s (buffereventAddToRateLimitGroup s b g) := by
  have hjoin := joinRateLimitGroup s b g
  unfold buffereventAddToRateLimitGroup
  split
  · next t heq =>
    rw [heq] at hjoin
    exact hjoin
  · next suspended t heq =>
    rw [heq] at hjoin
    exact hjoin.trans (suspendJoined t b suspended)

end

end GroupPath

/-- The calls that concern a group. -/
def BevAction.OfGroup : BevAction → Prop
  | .joinGroup .. | .leaveGroup .. | .decrementGroup .. | .refillGroup .. | .setGroupCfg ..
  | .setMinShare .. => True
  | _ => False

theorem bevStep_group (s : BevSystem) {a : BevAction} (ha : a.OfGroup) :
    Partly (bevStep s a) (GroupPath s) := by
  cases a with
  | joinGroup b g => exact .addToGroup s b g
  | leaveGroup b => exact .removeFromGroup s b
  | decrementGroup g d decr walk => exact .rateLimitGroupDecrement d s g decr walk
  | refillGroup g walkRead walkWrite => exact GroupPath.groupRefillCallback s g walkRead walkWrite
  | setGroupCfg g | setMinShare g => exact .group g _ (.refl s)
  | _ => exact ha.elim

/-! ### The callbacks -/

/-- One thing that a callback does to its bufferevent, apart from asking how much it may move. -/
inductive IoMove : Bufferevent → Bufferevent → Prop
  | disable (event : IoMask) (bev : Bufferevent) : IoMove bev (buffereventDisable bev event)
  | full {bev : Bufferevent} (hon : bev.wmReadHigh ≠ 0)
      (hroom : ssizeOf (bev.wmReadHigh - bev.input) ≤ 0) :
      IoMove bev (buffereventSuspend .read bev {.wm})
  | freezeInput (bev : Bufferevent) : IoMove bev { bev with inputFrozen := true }
  | freezeOutput (bev : Bufferevent) : IoMove bev { bev with outputFrozen := true }
  | setInput (len : Nat) (bev : Bufferevent) : IoMove bev (bev.setInput len)
  | drain (n : Nat) (bev : Bufferevent) : IoMove bev { bev with output := drainOutput n bev.output }
  | delIfDrained (bev : Bufferevent) : IoMove bev bev.delIfDrained
  | charge (d : Dir) (bytes : Int) (bev : Bufferevent) :
      IoMove bev (buffereventDecrementBuckets d bev bytes).2

inductive IoPath (b : BevId) : BevSystem → BevSystem → Prop
  | refl (s : BevSystem) : IoPath b s s
  | own {s t : BevSystem} {bev : Bufferevent} (hpath : IoPath b s t)
      (hmoves : ReflTransGen IoMove (t.bevs b) bev) : IoPath b s (t.setBev b bev)
  | groups {s t u : BevSystem} (hpath : IoPath b s t) (hgroups : GroupPath t u) : IoPath b s u

/-- What the callbacks do to the bufferevent `b` keeps `P`. -/
def IoStable (P : BevId → Bufferevent → Prop) (b : BevId) : Prop :=
  ∀ bev bev', IoMove bev bev' → P b bev → P b bev'

namespace IoPath

theorem all (hP : GroupStable P) (hown : IoStable P b) (hpath : IoPath b s t) (h : s.All P) :
    t.All P := by
  induction hpath with
  | refl => exact h
  | own _ hmoves ih => exact ih.setBev b (keeps_of_moves hown hmoves (ih b))
  | groups _ hgroups ih => exact hgroups.all hP ih

theorem now (hpath : IoPath b s t) : t.now = s.now := by
  induction hpath with
  | refl => rfl
  | own _ _ ih => exact ih
  | groups _ hgroups ih => exact hgroups.now.trans ih

theorem set (s : BevSystem) (b : BevId) (hmoves : ReflTransGen IoMove base bev) :
    IoPath b (s.setBev b base) (s.setBev b bev) := by
  rw [← setBev_setBev s b base bev]
  refine .own (.refl _) ?_
  rw [bevs_setBev_self]
  exact hmoves

theorem decrementAllBuckets (hpath : IoPath b s t) (d : Dir) (bytes : Int) (walk : Walk) :
    IoPath b s (buffereventDecrementAllBuckets d t b bytes walk) := by
  have hown := hpath.own (.single (.charge d bytes _))
  unfold buffereventDecrementAllBuckets
  dsimp only
  split
  · exact hown
  · exact hown.groups (GroupPath.decrementGroupBucket d _ _ bytes walk)

end IoPath

/-- A callback may ask first how much it may move. -/
def Allowed (d : Dir) (s : BevSystem) (b : BevId) (base : Bufferevent) : Prop :=
  base = s.bevs b ∨ ∃ m, buffereventGetRlimMax d s.now s.groups (s.bevs b) = .ok (m, base)

theorem allowed_getRlimMax (d : Dir) (s : BevSystem) (b : BevId) :
    Partly (buffereventGetRlimMax d s.now s.groups (s.bevs b)) fun r => Allowed d s b r.2 :=
  (Yields.of_forall fun _ => trivial).mono_eq fun r heq _ => .inr ⟨r.1, heq⟩

section
variable (s b) (env : IoEnv)

theorem readcbFinish_path (r : IoResult) (hmoves : ReflTransGen IoMove base bev) :
    IoPath b (s.setBev b base) (readcbFinish s b bev env r).2 := by
  unfold readcbFinish
  split
  · split
    · exact .set s b hmoves
    · exact .set s b hmoves
    · exact .set s b (hmoves.tail (.disable _ _))
  · exact .set s b (hmoves.tail (.disable _ _))
  · exact (IoPath.set s b (hmoves.tail (.setInput _ _))).decrementAllBuckets .read _ env.walk

theorem readcb_path : Partly (buffereventReadcb s b env) fun r =>
      ∃ base, Allowed .read s b base ∧ IoPath b (s.setBev b base) r.2 := by
  unfold buffereventReadcb
  dsimp only
  split
  · exact ⟨_, .inl rfl, .set s b (.single (.disable _ _))⟩
  split
  · next hroom => exact ⟨_, .inl rfl, .set s b (.single (.full hroom.1 hroom.2))⟩
  refine (allowed_getRlimMax .read s b).bind fun r hallowed => ?_
  split
  · exact ⟨r.2, hallowed, .set s b .refl⟩
  · exact ⟨r.2, hallowed, readcbFinish_path s b env _ (.single (.freezeInput r.2))⟩

theorem writecbFinish_path (r : IoResult) (hmoves : ReflTransGen IoMove base bev) :
    IoPath b (s.setBev b base) (writecbFinish s b bev env r).2 := by
  unfold writecbFinish
  split
  · split
    · exact .set s b (hmoves.tail (.delIfDrained _))
    · exact .set s b (hmoves.tail (.disable _ _))
  · exact .set s b (hmoves.tail (.disable _ _))
  · exact ((IoPath.set s b (hmoves.tail (.drain _ _))).decrementAllBuckets .write _ env.walk).own
      (.single (.delIfDrained _))

theorem writecb_path : Partly (buffereventWritecb s b env) fun r =>
      ∃ base, Allowed .write s b base ∧ IoPath b (s.setBev b base) r.2 := by
  unfold buffereventWritecb
  dsimp only
  split
  · exact ⟨_, .inl rfl, .set s b (.single (.disable _ _))⟩
  refine (allowed_getRlimMax .write s b).bind fun r hallowed => ?_
  split
  · exact ⟨r.2, hallowed, .set s b .refl⟩
  split
  · exact ⟨r.2, hallowed, writecbFinish_path s b env _ (.single (.freezeOutput r.2))⟩
  · exact ⟨r.2, hallowed, .set s b (.single (.delIfDrained _))⟩

end

/-- The end of a callback: `P` holds of every bufferevent when it is kept by the moves, and by
asking how much may be moved. -/
theorem Allowed.all (hP : GroupStable P) (hown : IoStable P b) (h : s.All P)
    (hmax : Partly (buffereventGetRlimMax d s.now s.groups (s.bevs b)) fun r => P b r.2) :
    (∃ base, Allowed d s b base ∧ IoPath b (s.setBev b base) t) → t.All P := by
  rintro ⟨base, rfl | ⟨m, heq⟩, hpath⟩
  · exact hpath.all hP hown (h.setBev b (h b))
  · exact hpath.all hP hown (h.setBev b (hmax.of_ok heq))

end Libevent
