import Mathlib.Data.List.DropRight
import SymbolAtlas.Proofs.AssignedIds
import SymbolAtlas.Session.Pass

/-!
# What a lineage remembers

A lineage is called again and again, each time with the declarations that were found and with the
snapshot that it led to last, or without one, or with declarations that it fails on
(`Lineage.Thread`).  However the calls follow each other, the retired ids are the most recent
distinct ones of all that were ever retired, as many as there is room for
(`Lineage.Thread.remembers_most_recent`).

Two things make this work.  The memory after one more retirement depends on the memory before it
alone (`Lineage.keepRecent_rtake`): an id that is pushed out comes back only by being retired again,
and then it is the most recent one anyway.  And ids that are live are never among the retired, since
a pass carries live ids over and hands out no retired ones, while only what is not handed out is
retired (`Lineage.Thread.Lives.next`).
-/

namespace SymbolAtlas

/-! ### The most recent of a log -/

/-- If each text occurs once, dropping one of them from the first `m + 1` leaves the first `m` of
the others. -/
theorem take_filter_ne {xs : List String} (h : xs.Nodup) (id : String) :
    ∀ m, ((xs.take (m + 1)).filter (· ≠ id)).take m = (xs.filter (· ≠ id)).take m := by
  induction xs with
  | nil => simp
  | cons x xs ih =>
    obtain ⟨hx, hxs⟩ := List.nodup_cons.mp h
    intro m
    by_cases hid : x = id
    · subst hid
      have hself : ∀ {ys : List String}, ys ⊆ xs → ys.filter (· ≠ x) = ys := fun {ys} hys =>
        List.filter_eq_self.mpr fun y hy => decide_eq_true fun hyx => hx (hyx ▸ hys hy)
      rw [List.take_succ_cons, List.filter_cons_of_neg (by simp), List.filter_cons_of_neg (by simp),
        hself (List.take_subset m xs), hself (List.Subset.refl xs), List.take_take, Nat.min_self]
    · rw [List.take_succ_cons, List.filter_cons_of_pos (by simpa using hid),
        List.filter_cons_of_pos (by simpa using hid)]
      cases m with
      | zero => rw [List.take_zero, List.take_zero]
      | succ m => rw [List.take_succ_cons, List.take_succ_cons, ih hxs m]

/-- One more entry of a log comes last, and before it nowhere. -/
theorem dedup_concat (log : List String) (id : String) :
    (log ++ [id]).dedup = log.dedup.filter (· ≠ id) ++ [id] := by
  induction log with
  | nil => simp
  | cons x log ih =>
    rw [List.cons_append, List.dedup_cons, ih, List.dedup_cons]
    by_cases hlog : x ∈ log
    · rw [if_pos (List.mem_append_left _ hlog), if_pos hlog]
    · by_cases hid : x = id
      · subst hid
        simp [hlog]
      · simp [hid, hlog]

namespace Lineage

variable {l : Lineage} {th : Thread} {x : String} {ids : List String}

/-- **The most recent ones after one more retirement** are found among the most recent ones before
it. -/
theorem keepRecent_rtake (capacity : Int) (log : List String) (id : String) :
    keepRecent capacity (log.dedup.rtake capacity.toNat) id =
      (log ++ [id]).dedup.rtake capacity.toNat := by
  show List.rtake (List.filter (· ≠ id) (log.dedup.rtake capacity.toNat) ++ [id]) _ = _
  rw [dedup_concat]
  cases capacity.toNat with
  | zero => rw [List.rtake_zero, List.rtake_zero]
  | succ m =>
    have hrecent := take_filter_ne (List.nodup_reverse.mpr (List.nodup_dedup log)) id m
    rw [List.rtake_concat_succ, List.rtake_concat_succ, List.rtake_eq_reverse_take_reverse,
      List.rtake_eq_reverse_take_reverse, List.rtake_eq_reverse_take_reverse, ← List.filter_reverse,
      List.reverse_reverse, hrecent, List.filter_reverse]

/-- What is kept are the last ids retired, each one once. -/
theorem foldl_keepRecent_rtake (capacity : Int) (gone : List String) :
    ∀ log : List String, gone.foldl (keepRecent capacity) (log.dedup.rtake capacity.toNat) =
      (log ++ gone).dedup.rtake capacity.toNat := by
  induction gone with
  | nil => intro log; rw [List.foldl_nil, List.append_nil]
  | cons id gone ih =>
    intro log
    rw [List.foldl_cons, keepRecent_rtake, ih, List.append_assoc, List.singleton_append]

/-! ### Suffix counters -/

/-- There are no more suffix counters than there is room for. -/
def Bounded (l : Lineage) : Prop := (l.suffixes.size : Int) ≤ l.capacity

/-- Noting a suffix keeps to the bound. -/
theorem Bounded.noteSuffix (h : l.Bounded) (id : String) (n : Nat) :
    (l.noteSuffix id n).Bounded := by
  have hsize : (l.suffixes.putLast id n).size ≤ l.suffixes.size + 1 := by
    have := List.length_filter_le (fun e => decide (e.1 ≠ id)) l.suffixes.toList
    simpa [Entries.size, Entries.putLast, Entries.erase] using this
  unfold Bounded at h ⊢
  rw [noteSuffix_capacity, Lineage.noteSuffix]
  dsimp only
  split_ifs with hroom
  · have hdrop : ((l.suffixes.putLast id n).dropOldest 1).size =
        (l.suffixes.putLast id n).size - 1 := List.length_drop
    omega
  · omega

/-- So does looking for an unused id. -/
theorem Bounded.unused (h : l.Bounded) (taken : List String) (id : String) :
    (l.unused taken id).2.Bounded := by
  simp only [Lineage.unused]
  split_ifs
  · exact h.noteSuffix id _
  · exact h

/-- So does retiring one. -/
theorem Bounded.retire (h : l.Bounded) (id : String) : (l.retire id).Bounded := by
  have herase : ∀ (out : List String) (es : Entries String Nat),
      (out.foldl Entries.erase es).size ≤ es.size := by
    intro out
    induction out with
    | nil => exact fun es => Nat.le_refl _
    | cons x out ih => exact fun es => (ih (es.erase x)).trans (List.length_filter_le _ _)
  have hsize : (l.retire id).suffixes.size ≤ l.suffixes.size := herase _ l.suffixes
  exact Int.le_trans (Int.ofNat_le.mpr hsize) h

theorem Bounded.foldl_retire (h : l.Bounded) (gone : List String) :
    (gone.foldl Lineage.retire l).Bounded := by
  induction gone generalizing l with
  | nil => exact h
  | cons id gone ih => exact ih (h.retire id)

/-! ### Calls that return and calls that fail -/

/-- What one declaration keeps holds where a pass ends, be it at the last declaration or at one
whose container is missing. -/
theorem Pass.assignAll_keeps {previous : List Symbol} {declarations : List Declaration}
    {P : Pass → Prop} (rest : List Declaration)
    (step : ∀ p d container, d ∈ rest → containerId p.ids d = .ok container → P p →
      P (p.assignOne previous declarations d container)) :
    ∀ p, P p → P (p.assignAll previous declarations rest).1 := by
  induction rest with
  | nil => exact fun p hp => hp
  | cons d rest ih =>
    intro p hp
    rw [Pass.assignAll]
    split
    · exact hp
    · rename_i container hcontainer
      refine ih (fun p d container hd => step p d container (List.mem_cons_of_mem _ hd)) _ ?_
      exact step p d container (List.mem_cons_self ..) hcontainer hp

/-- A container is one of the ids assigned before. -/
theorem mem_of_containerId {d : Declaration} {k : String} (h : containerId ids d = .ok (some k)) :
    k ∈ ids := by
  unfold containerId at h
  split at h
  · cases h
  · split at h
    · cases h
    · rename_i x hx
      obtain rfl : x = k := by simpa using h
      exact List.mem_of_getElem? hx

/-- Assigning an id keeps to the bound. -/
theorem Pass.bounded_assignOne {p : Pass} (h : p.lineage.Bounded) (previous : List Symbol)
    (declarations : List Declaration) (d : Declaration) (container : Option String) :
    (p.assignOne previous declarations d container).lineage.Bounded := by
  rcases p.assignOne_cases previous declarations d container with ⟨s, -, heq⟩ | ⟨x, l', hx, heq⟩
  · rw [heq]
    exact h
  · have := h.unused p.taken (naturalId p.lineage.fileId d.name d.line container)
    rw [hx] at this
    rw [heq]
    exact this

/-- The pass over `declarations` as far as those of `done`, and why it stops if it does. -/
def passUpTo (l : Lineage) (declarations : List Declaration) (previous : Option Snapshot)
    (done : List Declaration) : Pass × Option AssignError :=
  Pass.assignAll ((previous.map Snapshot.declared).getD []) declarations
    ⟨l, previousIds previous, [], []⟩ done

/-- A pass is sound at every point. -/
theorem sound_passUpTo (l : Lineage) (declarations : List Declaration) (previous : Option Snapshot)
    (done : List Declaration) :
    (l.passUpTo declarations previous done).1.Sound l
      ((previous.map Snapshot.declared).getD []) :=
  Pass.assignAll_keeps done (fun _ d container _ _ hp => hp.assignOne declarations d container) _
    (Pass.sound_start l _)

/-- **A call either returns the ids of its pass and retires what is gone, or fails and retires
nothing.** -/
theorem assign_eq_of_passUpTo (hcap : 0 ≤ l.capacity) {declarations : List Declaration}
    {previous : Option Snapshot} {p : Pass} {e : Option AssignError}
    (h : l.passUpTo declarations previous declarations = (p, e)) :
    l.assign declarations previous =
      match e with
      | some e => (.error e, p.lineage)
      | none => (.ok p.ids, (goneIds previous p.ids).foldl retire p.lineage) := by
  have hp := sound_passUpTo l declarations previous declarations
  rw [h] at hp
  unfold passUpTo previousIds at h
  cases e with
  | some e => simp only [assign, h]
  | none =>
    have hgone : (((previous.map Snapshot.declared).getD []).map Symbol.id).filter
        (fun id => !p.consumed.contains id) = goneIds previous p.ids := by
      refine List.filter_congr fun x hx => ?_
      simp [hp.consumed x, hx]
    simp only [assign, h, hgone, retireAll_of_nonneg (hp.capacity ▸ hcap)]
    rfl

/-- A property `P` of passes that one declaration keeps holds of the pass that a call makes. -/
theorem assign_cases (hcap : 0 ≤ l.capacity) (declarations : List Declaration)
    (previous : Option Snapshot) {P : Pass → Prop} (start : P ⟨l, previousIds previous, [], []⟩)
    (step : ∀ p d container, d ∈ declarations → containerId p.ids d = .ok container → P p →
      P (p.assignOne ((previous.map Snapshot.declared).getD []) declarations d container)) :
    ∃ p : Pass, p.Sound l ((previous.map Snapshot.declared).getD []) ∧ P p ∧
      ((∃ e, l.assign declarations previous = (.error e, p.lineage)) ∨
        l.assign declarations previous =
          (.ok p.ids, (goneIds previous p.ids).foldl retire p.lineage)) := by
  have hP : P (l.passUpTo declarations previous declarations).1 :=
    Pass.assignAll_keeps declarations step _ start
  have hsound := sound_passUpTo l declarations previous declarations
  cases hpass : l.passUpTo declarations previous declarations with
  | mk p e =>
    rw [hpass] at hP hsound
    refine ⟨p, hsound, hP, ?_⟩
    rw [assign_eq_of_passUpTo hcap hpass]
    cases e with
    | some e => exact Or.inl ⟨e, rfl⟩
    | none => exact Or.inr rfl

/-- A call returns exactly if containers come first. -/
theorem exists_assign_eq_ok_iff (hcap : 0 ≤ l.capacity) (declarations : List Declaration)
    (previous : Option Snapshot) :
    (∃ ids, (l.assign declarations previous).1 = .ok ids) ↔ ContainersBefore declarations := by
  constructor
  · rintro ⟨ids, hids⟩
    by_contra hc
    obtain ⟨before, d, after, c, hdecl, hcontainer, hle⟩ := exists_of_not_containersBefore hc
    obtain ⟨p, c', hall, -⟩ := Pass.assignAll_missing declarations declarations
      ⟨l, previousIds previous, [], []⟩ (Pass.sound_start l _)
      ⟨before, d, after, c, hdecl, hcontainer, by simpa using hle⟩
    unfold previousIds at hall
    simp only [assign, hall] at hids
    cases hids
  · intro hc
    obtain ⟨ids, -, hids⟩ := exists_handedOut l previous hc
    rw [if_neg fun h => absurd h.1 (Int.not_lt.mpr hcap)] at hids
    exact ⟨ids, hids⟩

/-! ### Threads of calls -/

/-- What a lineage is called with: the outline of a document, and whether ids start `anew`, without
a snapshot that they could be carried over from. -/
structure Reading where
  document : Document
  outline : Outline
  anew : Bool

/-- A lineage, and the snapshot that the last call which returned has led to. -/
structure Thread where
  lineage : Lineage
  current : Option Snapshot

namespace Thread

/-- A thread without calls. -/
def new (fileId : String) (capacity : Int) : Thread := ⟨.new fileId capacity, none⟩

/-- The snapshot that a call is made with. -/
def previous (th : Thread) (r : Reading) : Option Snapshot := if r.anew then none else th.current

/-- What a call gives. -/
def assign (th : Thread) (r : Reading) : Except AssignError (List String) × Lineage :=
  th.lineage.assign r.outline.declarations (th.previous r)

/-- The thread after a call.  A call that fails leaves the snapshot. -/
def next (th : Thread) (r : Reading) : Thread :=
  match th.assign r with
  | (.ok ids, l) => ⟨l, some (.ofOutline r.document r.outline ids)⟩
  | (.error _, l) => ⟨l, th.current⟩

/-- The thread after some calls. -/
def run (th : Thread) (rs : List Reading) : Thread := rs.foldl next th

/-- The ids that a call retires: those of the snapshot that are not assigned any more. -/
def retires (th : Thread) (r : Reading) : List String :=
  match (th.assign r).1 with
  | .ok ids => goneIds (th.previous r) ids
  | .error _ => []

/-- What each of some calls gives by `g`, one after the other. -/
def collect {α : Type} (g : Thread → Reading → List α) (th : Thread) : List Reading → List α
  | [] => []
  | r :: rs => g th r ++ (th.next r).collect g rs

/-- The ids that some calls retire, in the order of their retirement. -/
def retirements (th : Thread) (rs : List Reading) : List String := th.collect retires rs

theorem run_concat (th : Thread) (rs : List Reading) (r : Reading) :
    th.run (rs ++ [r]) = (th.run rs).next r := by
  rw [run, List.foldl_append]
  rfl

/-- What is collected in two runs is collected in one. -/
theorem collect_append {α : Type} (g : Thread → Reading → List α) (th : Thread)
    (rs rs' : List Reading) :
    th.collect g (rs ++ rs') = th.collect g rs ++ (th.run rs).collect g rs' := by
  induction rs generalizing th with
  | nil => rfl
  | cons r rs ih =>
    rw [List.cons_append, collect, collect, ih, List.append_assoc]
    rfl

theorem collect_concat {α : Type} (g : Thread → Reading → List α) (th : Thread)
    (rs : List Reading) (r : Reading) :
    th.collect g (rs ++ [r]) = th.collect g rs ++ g (th.run rs) r := by
  rw [collect_append, collect, collect, List.append_nil]

/-! ### Live ids -/

/-- The snapshot is made with ids that have a property. -/
def Bears (P : String → Prop) (th : Thread) : Prop :=
  ∀ c, th.current = some c → ∃ d o ids, c = .ofOutline d o ids ∧ ∀ x ∈ ids, P x

/-- The snapshot is made with ids that are not retired. -/
def Lives (th : Thread) : Prop := th.Bears (· ∉ th.lineage.retired)

/-- The symbols of a snapshot, apart from that of the file, bear the ids it is made with. -/
theorem id_mem_of_mem_tail {d : Document} {o : Outline} {x : Symbol}
    (hx : x ∈ (Snapshot.ofOutline d o ids).symbols.tail) : x.id ∈ ids := by
  rw [Snapshot.ofOutline, List.tail_cons] at hx
  obtain ⟨⟨e, id⟩, he, rfl⟩ := List.mem_map.mp hx
  exact (List.of_mem_zip he).2

/-- The ids of a snapshot are those it was made with. -/
theorem mem_of_mem_declared {d : Document} {o : Outline}
    (hx : x ∈ (Snapshot.ofOutline d o ids).declared.map Symbol.id) : x ∈ ids := by
  obtain ⟨s, hs, rfl⟩ := List.mem_map.mp hx
  refine id_mem_of_mem_tail (d := d) (o := o) ?_
  rw [Snapshot.declared, Snapshot.ofOutline, List.filter_cons_of_neg (by simp)] at hs
  exact (List.mem_filter.mp hs).1

/-- The ids that can be carried over in a call have the property too. -/
theorem Bears.of_mem_previousIds {P : String → Prop} (h : th.Bears P) (r : Reading)
    (hx : x ∈ previousIds (th.previous r)) : P x := by
  unfold previous at hx
  split_ifs at hx
  · simp [previousIds] at hx
  · cases hc : th.current with
    | none => simp [previousIds, hc] at hx
    | some c =>
      obtain ⟨d, o, ids, rfl, hids⟩ := h c hc
      rw [hc] at hx
      exact hids x (mem_of_mem_declared hx)

/-- **What one call does** to a thread whose live ids are not retired. -/
theorem next_cases (hcap : 0 ≤ th.lineage.capacity) (h : th.Lives) (r : Reading) :
    (∃ e l, th.assign r = (.error e, l) ∧ th.retires r = [] ∧ th.next r = ⟨l, th.current⟩ ∧
      l.retired = th.lineage.retired ∧ l.capacity = th.lineage.capacity ∧
      (th.lineage.Bounded → l.Bounded)) ∨
    (∃ ids l, th.assign r = (.ok ids, l) ∧ th.retires r = goneIds (th.previous r) ids ∧
      th.next r = ⟨l, some (.ofOutline r.document r.outline ids)⟩ ∧
      l.retired = (th.retires r).foldl (keepRecent th.lineage.capacity) th.lineage.retired ∧
      l.capacity = th.lineage.capacity ∧ (th.lineage.Bounded → l.Bounded) ∧
      ∀ x ∈ ids, x ∉ th.lineage.retired) := by
  obtain ⟨p, hp, hbounded, ⟨e, heq⟩ | heq⟩ := assign_cases hcap r.outline.declarations
    (th.previous r) (P := fun p => th.lineage.Bounded → p.lineage.Bounded) id
    fun p d container _ _ hb hl => Pass.bounded_assignOne (hb hl) _ _ d container
  · have heq' : th.assign r = _ := heq
    refine Or.inl ⟨e, _, heq', ?_, ?_, hp.retired, hp.capacity, hbounded⟩
    · rw [retires, heq']
    · rw [next, heq']
  · have heq' : th.assign r = _ := heq
    have hretires : th.retires r = goneIds (th.previous r) p.ids := by rw [retires, heq']
    obtain ⟨-, hcapacity, hretired⟩ := foldl_retire (goneIds (th.previous r) p.ids) p.lineage
    refine Or.inr ⟨p.ids, _, heq', hretires, ?_, ?_, hcapacity.trans hp.capacity,
      fun hb => (hbounded hb).foldl_retire _, fun x hx => ?_⟩
    · rw [next, heq']
    · rw [hretired, hp.capacity, hp.retired, hretires]
    · exact (hp.fresh x hx).elim (h.of_mem_previousIds r) id

/-- Nothing is kept but what was kept or retired. -/
theorem mem_of_mem_foldl_keepRecent {capacity : Int} {gone : List String} :
    ∀ {retired : List String}, x ∈ gone.foldl (keepRecent capacity) retired →
      x ∈ retired ∨ x ∈ gone := by
  induction gone with
  | nil => exact fun hx => Or.inl hx
  | cons id gone ih =>
    intro retired hx
    rcases ih hx with hx | hx
    · rcases List.mem_append.mp (List.mem_of_mem_drop hx) with hx | hx
      · exact Or.inl (List.mem_filter.mp hx).1
      · exact Or.inr (List.mem_singleton.mp hx ▸ List.mem_cons_self ..)
    · exact Or.inr (List.mem_cons_of_mem id hx)

/-- **Live ids stay apart from the retired ones.** -/
theorem Lives.next (h : th.Lives) (hcap : 0 ≤ th.lineage.capacity) (r : Reading) :
    (th.next r).Lives := by
  rcases next_cases hcap h r with ⟨e, l, -, -, hnext, hretired, -⟩ |
    ⟨ids, l, -, hretires, hnext, hretired, -, -, hfresh⟩
  · rw [hnext]
    intro c hc
    obtain ⟨d, o, ids, hc, hids⟩ := h c hc
    exact ⟨d, o, ids, hc, hretired.symm ▸ hids⟩
  · rw [hnext]
    intro c hc
    refine ⟨r.document, r.outline, ids, (Option.some.inj hc).symm, fun x hx hin => ?_⟩
    rw [hretired] at hin
    rcases mem_of_mem_foldl_keepRecent hin with hin | hin
    · exact hfresh x hx hin
    · rw [hretires] at hin
      exact absurd hx (of_decide_eq_true (List.mem_filter.mp hin).2)

/-! ### The id of the file -/

/-- The text ends in an identifier character. -/
def EndsInWord (t : Text) : Prop := ∃ u c, t = u ++ [c] ∧ isIdent c = true

/-- A text with a word at its end ends in it. -/
theorem endsInWord_of_isRun {t u : Text} (h : IsRun u) (hne : u ≠ []) : EndsInWord (t ++ u) := by
  obtain ⟨front, c, rfl⟩ := (List.eq_nil_or_concat u).resolve_left hne
  exact ⟨t ++ front, c, by simp, h c (by simp)⟩

/-- An id whose numbers stand behind a word, as they do behind a name and behind the number of a
container. -/
def BehindWord (x : String) : Prop :=
  EndsInWord x.toList ∧ ∃ u, EndsInWord u ∧ Numbered u x.toList

theorem digits_ne_nil (n : Nat) : (toString n).toList ≠ [] := by
  rw [Nat.toString_eq_repr, Nat.toList_repr]
  exact Nat.toDigits_ne_nil

theorem line_ne_nil {line : Int} (h : 0 ≤ line) : (toString line).toList ≠ [] := by
  obtain ⟨n, rfl⟩ := Int.eq_ofNat_of_zero_le h
  exact digits_ne_nil n

/-- Ids of declarations stand behind a word. -/
theorem behindWord_of_isVariant {f name : String} {line : Int} {container : Option String}
    (hname : IsName name) (hline : 0 ≤ line) (hcontainer : ∀ k, container = some k → BehindWord k)
    (hx : IsVariant (naturalId f name line container) x) : BehindWord x := by
  obtain ⟨u, hu, hid⟩ : ∃ u, EndsInWord u ∧
      (naturalId f name line container).toList = u ++ '@' :: (toString line).toList := by
    cases container with
    | none =>
      refine ⟨qualified f.toList name.toList, ?_, toList_naturalId_none f name line⟩
      simpa [qualified] using
        endsInWord_of_isRun (t := f.toList ++ [':', ':']) hname.2 hname.1
    | some k =>
      obtain ⟨v, c, hv, hc⟩ := (hcontainer k rfl).1
      exact ⟨qualified f.toList name.toList ++ '@' :: k.toList,
        ⟨qualified f.toList name.toList ++ '@' :: v, c, by simp [hv], hc⟩,
        toList_naturalId_some f name k line⟩
  refine ⟨?_, u, hu, Numbered.of_isVariant hline hid hx⟩
  rcases hx with rfl | ⟨n, rfl⟩
  · rw [hid]
    simpa using endsInWord_of_isRun (t := u ++ ['@']) (isRun_line hline) (line_ne_nil hline)
  · simpa [withSuffix] using endsInWord_of_isRun
      (t := (naturalId f name line container).toList ++ ['#']) (isRun_digits n) (digits_ne_nil n)

/-- The id of the file does not. -/
theorem not_behindWord_fileSymbolId (f : String) : ¬ BehindWord (fileSymbolId f) := by
  rintro ⟨-, u, ⟨v, c, rfl, hc⟩, hx⟩
  have heq := (numbered_fileSymbolId f).unique hx
  rw [qualified_fileKey] at heq
  have hlast : '>' = c := by simpa using congrArg List.getLast? heq
  rw [← hlast] at hc
  exact absurd hc (by decide)

/-- What is declared bears a name and stands on a line that has a number, as in every text. -/
def Named (o : Outline) : Prop := ∀ d ∈ o.declarations, IsName d.name ∧ 0 ≤ d.line

/-- All ids that are live or retired stand behind a word. -/
def Worded (th : Thread) : Prop :=
  th.Bears BehindWord ∧ ∀ x ∈ th.lineage.retired, BehindWord x

/-- A reading keeps it so. -/
theorem Worded.next (h : th.Worded) (hcap : 0 ≤ th.lineage.capacity) {r : Reading}
    (hr : Named r.outline) : (th.next r).Worded := by
  obtain ⟨p, hp, hids, ⟨e, heq⟩ | heq⟩ := assign_cases hcap r.outline.declarations
    (th.previous r) (P := fun p => ∀ x ∈ p.ids, BehindWord x) (by simp)
    fun p d container hd hcontainer hids => by
      rcases p.assignOne_cases _ r.outline.declarations d container with
        ⟨s, hs, heq⟩ | ⟨x, l', hx, heq⟩
      · have hprev := List.mem_map_of_mem (f := Symbol.id) (continued_eq_some hs).1
        rw [heq]
        exact List.forall_mem_append.mpr
          ⟨hids, List.forall_mem_singleton.mpr (h.1.of_mem_previousIds r hprev)⟩
      · have hvariant := (unused_fresh p.lineage p.taken
          (naturalId p.lineage.fileId d.name d.line container)).1
        rw [hx] at hvariant
        have hword := behindWord_of_isVariant (hr d hd).1 (hr d hd).2
          (fun k hk => hids k (mem_of_containerId (hk ▸ hcontainer))) hvariant
        rw [heq]
        exact List.forall_mem_append.mpr ⟨hids, List.forall_mem_singleton.mpr hword⟩
  · have hnext : th.next r = ⟨p.lineage, th.current⟩ := by
      have heq' : th.assign r = _ := heq
      rw [Thread.next, heq']
    rw [hnext]
    exact ⟨h.1, fun x hx => h.2 x (hp.retired ▸ hx)⟩
  · have hnext : th.next r = ⟨(goneIds (th.previous r) p.ids).foldl retire p.lineage,
        some (.ofOutline r.document r.outline p.ids)⟩ := by
      have heq' : th.assign r = _ := heq
      rw [Thread.next, heq']
    rw [hnext]
    refine ⟨fun c hc => ⟨r.document, r.outline, p.ids, (Option.some.inj hc).symm, hids⟩,
      fun x hx => ?_⟩
    rw [(foldl_retire _ _).2.2, hp.retired] at hx
    rcases mem_of_mem_foldl_keepRecent hx with hx | hx
    · exact h.2 x hx
    · exact h.1.of_mem_previousIds r (List.mem_filter.mp hx).1

/-! ### Whole threads -/

/-- What a thread remembers once the ids of `log` were retired one after the other. -/
structure Remembers (capacity : Nat) (log : List String) (th : Thread) : Prop where
  /-- The retired ids are the most recent distinct ones, the oldest first. -/
  recent : th.lineage.retired = log.dedup.rtake capacity
  counters : th.lineage.suffixes.size ≤ capacity
  live : ∀ c, th.current = some c → ∀ x ∈ c.symbols.tail, x.id ∉ th.lineage.retired

/-- What a call does to the ids of the snapshot that it is made with and to the retired ones. -/
structure Accounts (th : Thread) (r : Reading) : Prop where
  returns : (∃ ids, (th.assign r).1 = .ok ids) ↔ ContainersBefore r.outline.declarations
  kept : ∀ ids, (th.assign r).1 = .ok ids →
    ∀ x ∈ previousIds (th.previous r), x ∈ ids ∨ x ∈ th.retires r
  fresh : ∀ ids, (th.assign r).1 = .ok ids → ∀ x ∈ ids, x ∉ th.lineage.retired
  failed : ∀ e, (th.assign r).1 = .error e →
    th.retires r = [] ∧ (th.next r).lineage.retired = th.lineage.retired

/-- What every call keeps. -/
structure Kept (n : Nat) (log : List String) (th : Thread) : Prop where
  capacity : th.lineage.capacity = n
  recent : th.lineage.retired = log.dedup.rtake n
  bounded : th.lineage.Bounded
  lives : th.Lives

/-- A new thread has retired nothing. -/
theorem kept_new (f : String) (n : Nat) : Kept n [] (new f n) :=
  ⟨rfl, by simp [new, Lineage.new], Int.natCast_nonneg n, fun c hc => by cases hc⟩

section

variable {n : Nat} {log : List String} {th : Thread} (h : Kept n log th)
include h

theorem Kept.capacity_nonneg : 0 ≤ th.lineage.capacity := h.capacity ▸ Int.natCast_nonneg n

/-- **One call keeps the memory in order.** -/
theorem Kept.next (r : Reading) : Kept n (log ++ th.retires r) (th.next r) := by
  have hlives := h.lives.next h.capacity_nonneg r
  rcases next_cases h.capacity_nonneg h.lives r with
    ⟨e, l, -, hretires, hnext, hretired, hcapacity, hbounded⟩ |
    ⟨ids, l, -, -, hnext, hretired, hcapacity, hbounded, -⟩
  · rw [hnext] at hlives ⊢
    refine ⟨hcapacity.trans h.capacity, ?_, hbounded h.bounded, hlives⟩
    rw [hretired, hretires, List.append_nil, h.recent]
  · rw [hnext] at hlives ⊢
    refine ⟨hcapacity.trans h.capacity, ?_, hbounded h.bounded, hlives⟩
    have hlog := foldl_keepRecent_rtake n (th.retires r) log
    rw [Int.toNat_natCast] at hlog
    rw [hretired, h.capacity, h.recent, hlog]

/-- What is kept is what is remembered. -/
theorem Kept.remembers : Remembers n log th := by
  refine ⟨h.recent, Int.ofNat_le.mp (h.capacity ▸ h.bounded), fun c hc x hx => ?_⟩
  obtain ⟨d, o, ids, rfl, hids⟩ := h.lives c hc
  exact hids x.id (id_mem_of_mem_tail hx)

/-- And every reading can be accounted for by it. -/
theorem Kept.accounts (r : Reading) : Accounts th r := by
  have hreturns := exists_assign_eq_ok_iff h.capacity_nonneg r.outline.declarations (th.previous r)
  rcases next_cases h.capacity_nonneg h.lives r with
    ⟨e, l, hassign, hretires, hnext, hretired, -⟩ |
    ⟨ids, l, hassign, hretires, -, -, -, -, hfresh⟩
  · refine ⟨hreturns, fun ids hids => ?_, fun ids hids => ?_, fun e' _ => ⟨hretires, ?_⟩⟩
    · rw [hassign] at hids
      cases hids
    · rw [hassign] at hids
      cases hids
    · rw [hnext, hretired]
  · refine ⟨hreturns, fun ids' hids x hx => ?_, fun ids' hids => ?_, fun e he => ?_⟩
    · obtain rfl : ids = ids' := by simpa [hassign] using hids
      by_cases hin : x ∈ ids
      · exact Or.inl hin
      · rw [hretires]
        exact Or.inr (List.mem_filter.mpr ⟨hx, decide_eq_true hin⟩)
    · obtain rfl : ids = ids' := by simpa [hassign] using hids
      exact hfresh
    · rw [hassign] at he
      cases he

end

/-- **After every run the last retirements are kept.** -/
theorem kept_run (f : String) (n : Nat) (rs : List Reading) :
    Kept n ((new f n).retirements rs) ((new f n).run rs) := by
  induction rs using List.reverseRecOn with
  | nil => exact kept_new f n
  | append_singleton rs r ih =>
    rw [run_concat, retirements, collect_concat]
    exact ih.next r

/-- And all ids stand behind words. -/
theorem worded_run (f : String) (n : Nat) (rs : List Reading)
    (hrs : ∀ r ∈ rs, Named r.outline) : ((new f n).run rs).Worded := by
  induction rs using List.reverseRecOn with
  | nil => exact ⟨fun c hc => (by cases hc), fun x hx => (by cases hx)⟩
  | append_singleton rs r ih =>
    rw [List.forall_mem_append] at hrs
    rw [run_concat]
    exact (ih hrs.1).next (kept_run f n rs).capacity_nonneg (hrs.2 r (List.mem_singleton_self r))

/-- Where everything bears a name the id of the file is not retired either. -/
theorem Worded.file_notMem (h : th.Worded) {c : Snapshot} (hc : th.current = some c)
    (hlive : ∀ x ∈ c.symbols.tail, x.id ∉ th.lineage.retired) :
    ∀ x ∈ c.symbols, x.id ∉ th.lineage.retired := by
  obtain ⟨d, o, ids, rfl, -⟩ := h.1 c hc
  intro x hx
  rcases List.mem_cons.mp hx with rfl | hx
  · exact fun hin => not_behindWord_fileSymbolId d.fileId (h.2 _ hin)
  · exact hlive x hx

/-- **The retirement memory is the most recent retirements.**  After any calls, whether they were
made with the last snapshot or anew and whether they returned or failed, the retired ids are the
most recent distinct ones of all that were retired, there are no more suffix counters than that, and
no symbol of the snapshot bears a retired id; nor does the file, as long as names are names.  Each
call returns unless a container is missing, keeps or retires each id of the snapshot that it is made
with, and assigns none that is retired; a call that fails retires nothing. -/
theorem remembers_most_recent (f : String) (capacity : Nat) (rs : List Reading) :
    Remembers capacity ((new f capacity).retirements rs) ((new f capacity).run rs) ∧
      (∀ r, Accounts ((new f capacity).run rs) r) ∧
      ((∀ r ∈ rs, Named r.outline) → ∀ c, ((new f capacity).run rs).current = some c →
        ∀ x ∈ c.symbols, x.id ∉ ((new f capacity).run rs).lineage.retired) := by
  have h := kept_run f capacity rs
  exact ⟨h.remembers, h.accounts, fun hrs c hc =>
    (worded_run f capacity rs hrs).file_notMem hc (h.remembers.live c hc)⟩

/-- A call with some declarations. -/
def reading (declarations : List Declaration) (anew : Bool) : Reading :=
  ⟨⟨"a", [], "typescript", 1⟩, ⟨declarations, 0, 0⟩, anew⟩

/-- The function `f` goes, comes back under a variant of its id, and in the end, once its id is
forgotten, under that id.  In between a method has no class, and a call is made anew. -/
def comingAndGoing : List Reading :=
  [reading [placedAt "f" .function 1 none, placedAt "g" .function 2 none] false,
    reading [placedAt "g" .function 2 none, placedAt "m" .method 3 (some 1)] false,
    reading [placedAt "g" .function 2 none] false,
    reading [placedAt "f" .function 1 none] true,
    reading [] false,
    reading [placedAt "g" .function 2 none] false,
    reading [] false,
    reading [placedAt "f" .function 1 none] false,
    reading [placedAt "g" .function 2 none] false]

/-- `f` is retired, pushed out and retired again; there is room for two ids. -/
theorem comingAndGoing_remembered :
    (new "a" 2).retirements comingAndGoing = ["a::f@1", "a::f@1#2", "a::g@2", "a::f@1"] ∧
      ((new "a" 2).run comingAndGoing).lineage.retired = ["a::g@2", "a::f@1"] ∧
      (∀ r ∈ comingAndGoing, Named r.outline) ∧
      Remembers 2 ["a::f@1", "a::f@1#2", "a::g@2", "a::f@1"] ((new "a" 2).run comingAndGoing) ∧
      ∃ c, ((new "a" 2).run comingAndGoing).current = some c ∧
        ∀ x ∈ c.symbols, x.id ∉ ((new "a" 2).run comingAndGoing).lineage.retired := by
  have hlog : (new "a" 2).retirements comingAndGoing =
      ["a::f@1", "a::f@1#2", "a::g@2", "a::f@1"] := by decide +kernel
  have hids : ((new "a" 2).run comingAndGoing).current.map (fun c => c.symbols.map Symbol.id) =
      some ["a::<file>@1", "a::g@2#2"] := by decide +kernel
  have hplain : ∀ r ∈ comingAndGoing, ∀ d ∈ r.outline.declarations,
      d.name ≠ "" ∧ d.name.toList.all isIdent = true ∧ 0 ≤ d.line := by decide +kernel
  have hnamed : ∀ r ∈ comingAndGoing, Named r.outline := fun r hr d hd =>
    ⟨⟨by simpa using (hplain r hr d hd).1, List.all_eq_true.mp (hplain r hr d hd).2.1⟩,
      (hplain r hr d hd).2.2⟩
  obtain ⟨hremembers, -, hfile⟩ := remembers_most_recent "a" 2 comingAndGoing
  obtain ⟨c, hc, -⟩ := Option.map_eq_some_iff.mp hids
  exact ⟨hlog, by decide +kernel, hnamed, hlog ▸ hremembers, c, hc, hfile hnamed c hc⟩

end Thread
end Lineage
end SymbolAtlas
