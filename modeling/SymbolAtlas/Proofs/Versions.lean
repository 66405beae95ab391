import SymbolAtlas.Proofs.Files
import SymbolAtlas.Proofs.Outcomes

/-!
# Versions never go backwards

Over a run every file has one outcome for each operation (`Session.Course`).  As long as it is not
forgotten, the versions that can be seen of its snapshot, by those who are called and after every
operation, do not fall (`Course.pairwise_versionsSeen`); and each subscriber that cares for
snapshots is told of as many as are installed (`Course.length_newsOf`).  Nothing is asked of the
documents: they may be changed behind the back of the indexer, and to lower versions.
-/

namespace SymbolAtlas
namespace Session

variable {s : Session} {f : String} {ops : List Op}

/-- The version of the snapshot of a file, if it has one. -/
def versionOf (f : String) (s : Session) : List Int :=
  ((s.snapshot? f).map Snapshot.version).toList

theorem mem_versionOf {v : Int} :
    v ∈ s.versionOf f ↔ ∃ c, s.snapshot? f = some c ∧ c.version = v := by
  simp [versionOf]

/-- The versions that are seen in some calls. -/
def versionsIn (f : String) (cs : List Call) : List Int := cs.flatMap (·.session.versionOf f)

section Steady

variable {f : String} {s : Session} {cs : List Call}

/-- What is seen as long as nothing happens is the version there was. -/
theorem mem_versionOf_of_steady (h : ∀ call ∈ cs, call.session.snapshot? f = s.snapshot? f)
    {v : Int} (hv : v ∈ s.versionOf f ++ versionsIn f cs) : v ∈ s.versionOf f := by
  rcases List.mem_append.mp hv with hv | hv
  · exact hv
  · obtain ⟨call, hcall, hv⟩ := List.mem_flatMap.mp hv
    rwa [versionOf, h call hcall] at hv

theorem pairwise_of_steady (h : ∀ call ∈ cs, call.session.snapshot? f = s.snapshot? f) :
    (s.versionOf f ++ versionsIn f cs).Pairwise (· ≤ ·) := by
  refine List.pairwise_of_forall_mem_list fun v hv w hw => ?_
  obtain ⟨c, hc, rfl⟩ := mem_versionOf.mp (mem_versionOf_of_steady h hv)
  obtain ⟨c', hc', rfl⟩ := mem_versionOf.mp (mem_versionOf_of_steady h hw)
  exact Int.le_of_eq (congrArg Snapshot.version (Option.some.inj (hc.symm.trans hc')))

end Steady

/-- Those who are called during an operation that does not forget a file see versions that do not
fall, and the version after it is not lower. -/
theorem Happens.pairwise_versions {forced : Bool} {t : Session} {cs : List Call} {o : Outcome}
    (h : Happens f forced s cs t o) (ho : o ≠ .forgotten) :
    (s.versionOf f ++ versionsIn f cs).Pairwise (· ≤ ·) ∧
      ∀ v ∈ s.versionOf f ++ versionsIn f cs, ∃ c, t.snapshot? f = some c ∧ v ≤ c.version := by
  cases h with
  | untouched last calls news =>
    refine ⟨pairwise_of_steady calls, fun v hv => ?_⟩
    obtain ⟨c, hc, rfl⟩ := mem_versionOf.mp (mem_versionOf_of_steady calls hv)
    exact ⟨c, last.trans hc, Int.le_refl _⟩
  | forgotten => exact absurd rfl ho
  | @installed cs ds _ d c last complete version before after silence news =>
    have hafter : ∀ v ∈ versionsIn f ds, v = c.version := by
      intro v hv
      obtain ⟨call, hcall, hv⟩ := List.mem_flatMap.mp hv
      obtain ⟨c', hc', rfl⟩ := mem_versionOf.mp hv
      rw [(after call hcall).snapshot, Option.some.injEq] at hc'
      rw [hc']
    have hbefore : ∀ v ∈ s.versionOf f ++ versionsIn f cs, v ≤ c.version := by
      intro v hv
      obtain ⟨c₀, hc₀, rfl⟩ := mem_versionOf.mp (mem_versionOf_of_steady before hv)
      obtain hlt | ⟨-, heq⟩ := version c₀ hc₀
      · exact Int.le_of_lt hlt
      · exact Int.le_of_eq heq
    have hsplit : s.versionOf f ++ versionsIn f (cs ++ ds) =
        s.versionOf f ++ versionsIn f cs ++ versionsIn f ds := by
      simp [versionsIn]
    rw [hsplit]
    refine ⟨List.pairwise_append.mpr ⟨pairwise_of_steady before, ?_, ?_⟩,
      fun v hv => ⟨c, last.snapshot, ?_⟩⟩
    · refine List.pairwise_of_forall_mem_list fun v hv w hw => ?_
      have hv := hafter v hv
      have hw := hafter w hw
      omega
    · exact fun v hv w hw => hafter w hw ▸ hbefore v hv
    · rcases List.mem_append.mp hv with hv | hv
      · exact hbefore v hv
      · exact Int.le_of_eq (hafter v hv)

/-- The number of times that somebody is told of a snapshot. -/
theorem Happens.length_newsOf {forced : Bool} {t : Session} {cs : List Call} {o : Outcome}
    (h : Happens f forced s cs t o) {who : Subscriber} (hwho : who ∈ s.subscribers)
    (hlistens : who.listensTo .snapshotUpdated = true) :
    (newsOf f who cs).length = if o.installs then 1 else 0 := by
  cases h with
  | untouched last calls news => rw [news]; rfl
  | forgotten last before after news => rw [news]; rfl
  | installed last complete version before after silence news =>
    rw [newsOf_append, silence, List.nil_append, news who hwho hlistens]
    rfl

/-! ### Runs -/

/-- The outcomes of the operations of a run, one after the other. -/
inductive Course (f : String) : Session → List Op → List Outcome → Prop
  | nil (s : Session) : Course f s [] []
  | cons {s : Session} {op : Op} {ops : List Op} {o : Outcome} {os : List Outcome}
      (first : Happens f (op.forces f) s (s.calls op) (s.step op).1 o)
      (rest : Course f (s.step op).1 ops os) : Course f s (op :: ops) (o :: os)

/-- The calls made during a run. -/
def callsOf (s : Session) (ops : List Op) : List Call :=
  callsOver (fun s op => (s.step op).1) calls ops s

/-- The versions of the snapshot of a file that are seen during a run: at first, in every call, and
after every operation. -/
def versionsSeen (f : String) (s : Session) : List Op → List Int
  | [] => s.versionOf f
  | op :: ops =>
    s.versionOf f ++ versionsIn f (s.calls op) ++ versionsSeen f (s.step op).1 ops

theorem exists_course (hs : s.Tidy) (f : String) (hops : ∀ op ∈ ops, op.genuine = true) :
    ∃ os, Course f s ops os := by
  induction ops generalizing s with
  | nil => exact ⟨[], .nil s⟩
  | cons op ops ih =>
    rw [List.forall_mem_cons] at hops
    obtain ⟨o, ho⟩ := happens_step hs f hops.1
    obtain ⟨os, hos⟩ := ih (hs.step op) hops.2
    exact ⟨o :: os, .cons ho hos⟩

theorem Op.disposes_of_genuine {op : Op} (h : op.genuine = true) : op.disposes = false := by
  cases op with
  | dispose part => cases h
  | _ => rfl

theorem Course.length_newsOf {os : List Outcome} (h : Course f s ops os)
    (hops : ∀ op ∈ ops, op.genuine = true) {who : Subscriber} (hwho : who ∈ s.subscribers)
    (hlistens : who.listensTo .snapshotUpdated = true) :
    (newsOf f who (s.callsOf ops)).length = os.countP (·.installs) := by
  induction h with
  | nil s => rfl
  | @cons s op ops o os first rest ih =>
    rw [List.forall_mem_cons] at hops
    have hsubscribers := subscribers_of_reaches
      (follows_step s (Op.disposes_of_genuine hops.1)).reaches
    rw [callsOf, callsOver, newsOf_append, List.length_append, first.length_newsOf hwho hlistens,
      List.countP_cons, Nat.add_comm]
    exact congrArg (· + _) (ih hops.2 (hsubscribers ▸ hwho))

/-- **As long as a file is not forgotten, its versions do not fall.** -/
theorem Course.pairwise_versionsSeen {os : List Outcome} (h : Course f s ops os)
    (hkept : Outcome.forgotten ∉ os) : (versionsSeen f s ops).Pairwise (· ≤ ·) := by
  induction h with
  | nil s =>
    cases hc : s.snapshot? f <;> simp [versionsSeen, versionOf, hc]
  | @cons s op ops o os first rest ih =>
    rw [List.mem_cons, not_or] at hkept
    obtain ⟨hpairwise, hle⟩ := first.pairwise_versions (Ne.symm hkept.1)
    have hrest := ih hkept.2
    refine List.pairwise_append.mpr ⟨hpairwise, hrest, fun v hv w hw => ?_⟩
    obtain ⟨c, hc, hvc⟩ := hle v hv
    -- what is seen later is not lower than the version after this operation
    have hfirst : ∃ later, versionsSeen f (s.step op).1 ops = c.version :: later := by
      have hversion : (s.step op).1.versionOf f = [c.version] := by simp [versionOf, hc]
      cases ops with
      | nil => exact ⟨[], hversion⟩
      | cons op' ops => exact ⟨_, by rw [versionsSeen, hversion]; rfl⟩
    obtain ⟨later, hlater⟩ := hfirst
    rw [hlater] at hrest hw
    rcases List.mem_cons.mp hw with rfl | hw
    · exact hvc
    · exact Int.le_trans hvc ((List.pairwise_cons.mp hrest).1 w hw)

/-- **Versions never go backwards.**  A session begins over some documents with some subscribers;
then documents are changed in the open or behind its back, true and false things are announced about
them, time goes by, and files are indexed at once.  For each file every operation has one of three
outcomes: its snapshot is untouched, or it is forgotten, or a complete snapshot of the document that
is open at that moment is installed.  Every subscriber that cares is told as often as a snapshot is
installed, and finds it installed.  And wherever the file is not forgotten for a while, the versions
that are seen meanwhile do not fall. -/
theorem versions_never_fall (config : Config) (clocked : Bool) (documents : List Document)
    {whos : List Subscriber} (hwhos : whos.Nodup) {ops : List Op}
    (hops : ∀ op ∈ ops, op.genuine = true) (f : String) :
    let s := blank config clocked (.holding documents) whos
    (∃ os, Course f s ops os ∧ ∀ who ∈ whos, who.listensTo .snapshotUpdated = true →
        (newsOf f who (s.callsOf ops)).length = os.countP (·.installs)) ∧
      ∀ before stretch after os, ops = before ++ stretch ++ after →
        Course f (s.run before) stretch os → Outcome.forgotten ∉ os →
        (versionsSeen f (s.run before) stretch).Pairwise (· ≤ ·) := by
  intro s
  obtain ⟨os, hos⟩ := exists_course (tidy_blank_of_nodup config clocked documents hwhos) f hops
  refine ⟨⟨os, hos, fun who hwho hl => hos.length_newsOf hops hwho hl⟩, ?_⟩
  intro before stretch after os' _ hcourse hkept
  exact hcourse.pairwise_versionsSeen hkept

/-- A document is changed behind the back of the indexer, first to a lower version and then to a
higher one, and is taken away; then it is opened again. -/
def behindItsBack : List Op :=
  [.openDocument "a" "function f() {}".toList "typescript" 5, .advance 250,
    .plant ⟨"a", "function g() {}".toList, "typescript", 2⟩, .publish (.contentChanged "a"),
    .advance 250, .recompute "a", .plant ⟨"a", "function h() {}".toList, "typescript", 9⟩,
    .publish (.documentAdded "a"), .flush, .recompute "a", .uproot "a",
    .publish (.contentChanged "a"), .advance 250, .openDocument "a" [] "typescript" 1, .flush]

/-- The version goes from 5 to 9, and is 1 once the file has been forgotten.  There are four
snapshots, since the second one is made again. -/
theorem behindItsBack_versions :
    let s := blank .default true (.holding []) [.indexer, .history, .listener]
    (versionsSeen "a" s behindItsBack).dedup = [5, 9, 1] ∧
      (newsOf "a" .history (s.callsOf behindItsBack)).length = 4 ∧
      (∃ os, Course "a" s behindItsBack os ∧ ∀ who ∈ [Subscriber.indexer, .history, .listener],
        who.listensTo .snapshotUpdated = true →
          (newsOf "a" who (s.callsOf behindItsBack)).length = os.countP (·.installs)) ∧
      ∀ before stretch after os, behindItsBack = before ++ stretch ++ after →
        Course "a" (s.run before) stretch os → Outcome.forgotten ∉ os →
        (versionsSeen "a" (s.run before) stretch).Pairwise (· ≤ ·) := by
  refine ⟨by decide +kernel, by decide +kernel, ?_⟩
  exact versions_never_fall .default true [] (by decide) (by decide) "a"

end Session
end SymbolAtlas
