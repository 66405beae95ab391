import SymbolAtlas.Proofs.Change
import SymbolAtlas.Proofs.Places
import SymbolAtlas.Proofs.Snapshot

/-!
# Ids that are carried over

A list of declarations continues another one (`Continues`) if it begins with a declaration at each
place of the other, under its old name or under one that nothing bore before, and goes on with
declarations on other lines only.  Then each declaration at an old place finds the symbol that
stood there, and no other symbol can be taken for it (`Lineage.continued_of_place`), so all ids are
carried over in order and the declarations that are left get fresh ones
(`Lineage.assign_of_continues`).  No id is retired.

Of two such snapshots the changes are the renamings at the old places followed by the additions
(`Snapshot.changesTo_of_append`).
-/

namespace SymbolAtlas

/-! ### Declarations -/

/-- Where a declaration stands: its kind, its line and its container. -/
def Declaration.place (d : Declaration) : Kind × Int × Option Nat := (d.kind, d.line, d.container)

/-- What a declaration goes by: its kind and its name. -/
def Declaration.label (d : Declaration) : Kind × String := (d.kind, d.name)

theorem Declaration.name_ne_of_label_notMem {d e : Declaration} {ds : List Declaration}
    (h : d.label ∉ ds.map label) (he : e ∈ ds) (hkind : e.kind = d.kind) : e.name ≠ d.name :=
  fun hname => h (List.mem_map.mpr ⟨e, he, Prod.ext hkind hname⟩)

/-- The declarations `after` begin with one at each place of `before`.  If its name is another one,
the new name was not there before and the old one is gone.  What follows is on other lines. -/
structure Continues (before after : List Declaration) : Prop where
  place : ∀ (i : Nat) (d : Declaration), before[i]? = some d → ∃ e, after[i]? = some e ∧
    e.place = d.place ∧ (d.name ≠ e.name →
      e.label ∉ before.map Declaration.label ∧ d.label ∉ after.map Declaration.label)
  apart : ∀ (i : Nat) (e : Declaration), before.length ≤ i → after[i]? = some e →
    ∀ d ∈ before, d.line ≠ e.line

theorem Continues.refl (ds : List Declaration) : Continues ds ds := by
  refine ⟨fun i d hd => ⟨d, hd, rfl, fun h => absurd rfl h⟩, fun i e hi he => ?_⟩
  exact absurd (List.getElem?_eq_some_iff.mp he).1 (Nat.not_lt.mpr hi)

theorem Continues.length_le {before after : List Declaration} (h : Continues before after) :
    before.length ≤ after.length := by
  rcases Nat.eq_zero_or_pos before.length with hzero | hpos
  · exact hzero ▸ Nat.zero_le _
  · have hlast : before.length - 1 < before.length := by omega
    obtain ⟨e, he, -⟩ := h.place _ _ (List.getElem?_eq_getElem hlast)
    have := (List.getElem?_eq_some_iff.mp he).1
    omega

/-! ### Assigning ids -/

namespace Lineage

theorem lastWith_eq_none {symbols : List Symbol} {p : Symbol → Bool}
    (h : ∀ x ∈ symbols, p x = false) : lastWith symbols p = none :=
  List.find?_eq_none.mpr fun x hx => by simp [h x (List.mem_reverse.mp hx)]

theorem lastWith_eq_of_unique {symbols : List Symbol} {p : Symbol → Bool} {s : Symbol}
    (hs : s ∈ symbols) (hp : p s = true) (hunique : ∀ x ∈ symbols, p x = true → x = s) :
    lastWith symbols p = some s := by
  cases hlast : lastWith symbols p with
  | none => exact absurd hp (List.find?_eq_none.mp hlast s (List.mem_reverse.mpr hs))
  | some x =>
    obtain ⟨hx, hpx⟩ := lastWith_eq_some hlast
    rw [hunique x hx hpx]

/-- **A declaration continues the symbol that stood in its place**, if that symbol is the only one
on its line, was not continued before, and goes by the same name or by one that is gone while the
new one was not there. -/
theorem continued_of_place {previous : List Symbol} {declarations : List Declaration}
    {consumed : List String} {d : Declaration} {container : Option String} {s : Symbol}
    (hs : s ∈ previous) (hfree : s.id ∉ consumed) (hkind : s.kind = d.kind)
    (hcontainer : s.container = container) (hline : s.line = d.line)
    (halone : ∀ x ∈ previous, x.line = d.line → x = s)
    (hname : s.name ≠ d.name → (∀ x ∈ previous, x.kind = d.kind → x.name ≠ d.name) ∧
      ∀ e ∈ declarations, e.kind = s.kind → e.name ≠ s.name) :
    continued previous declarations consumed d container = some s := by
  have hplace : lastWith previous (fun x =>
      x.kind = d.kind && x.container = container && x.line = d.line) = some s := by
    refine lastWith_eq_of_unique hs (by simp [hkind, hcontainer, hline]) fun x hx hp => ?_
    simp only [Bool.and_eq_true, decide_eq_true_eq] at hp
    exact halone x hx hp.2
  have hsame : lastWith previous (fun x =>
      (x.kind = d.kind && x.container = container && x.line = d.line) && x.name = d.name) =
        if s.name = d.name then some s else none := by
    split_ifs with hn
    · refine lastWith_eq_of_unique hs (by simp [hkind, hcontainer, hline, hn]) fun x hx hp => ?_
      simp only [Bool.and_eq_true, decide_eq_true_eq] at hp
      exact halone x hx hp.1.2
    · refine lastWith_eq_none fun x hx => by_contra fun hp => ?_
      simp only [Bool.not_eq_false, Bool.and_eq_true, decide_eq_true_eq] at hp
      exact hn (halone x hx hp.1.2 ▸ hp.2)
  simp only [continued, hsame, hplace]
  by_cases hn : s.name = d.name
  · simp [hn, hfree, Option.filter_some]
  · obtain ⟨hnew, hgone⟩ := hname hn
    have hnew' : previous.any (fun p => p.kind = d.kind && p.name = d.name) = false := by
      simpa using hnew
    have hgone' : declarations.any (fun e => e.kind = s.kind && e.name = s.name) = false := by
      simpa using hgone
    simp [hn, hfree, hnew', hgone', Option.filter_some]

end Lineage

/-! ### Snapshots -/

/-- The snapshot is made of the document, with an id of its own for each declaration. -/
structure Snapshot.DrawnFrom (d : Document) (ids : List String) (c : Snapshot) : Prop where
  eq : c = ofOutline d (Outline.ofText d.content) ids
  nodup : ids.Nodup
  length : ids.length = (Outline.ofText d.content).declarations.length

namespace Snapshot.DrawnFrom

variable {d : Document} {ids : List String} {c : Snapshot}

theorem declared (h : c.DrawnFrom d ids) : c.declared =
    ((Outline.ofText d.content).declarations.zip ids).map (symbolOf d ids) := by
  rw [h.eq, declared_ofOutline]

theorem declaredIds (h : c.DrawnFrom d ids) : c.declared.map Symbol.id = ids := by
  rw [h.eq, declaredIds_ofOutline d h.length]

theorem reflects (h : c.DrawnFrom d ids) : c.Reflects d := by
  rw [h.eq]
  exact reflects_ofOutline d h.length

/-- Each symbol is a declaration with its id. -/
theorem mem_declared_iff (h : c.DrawnFrom d ids) {s : Symbol} :
    s ∈ c.declared ↔ ∃ (i : Nat) (e : Declaration) (x : String),
      (Outline.ofText d.content).declarations[i]? = some e ∧ ids[i]? = some x ∧
        s = symbolOf d ids (e, x) := by
  rw [h.declared]
  constructor
  · intro hs
    obtain ⟨⟨e, x⟩, hex, rfl⟩ := List.mem_map.mp hs
    obtain ⟨i, hi⟩ := List.mem_iff_getElem?.mp hex
    obtain ⟨he, hx⟩ := List.getElem?_zip_eq_some.mp hi
    exact ⟨i, e, x, he, hx, rfl⟩
  · rintro ⟨i, e, x, he, hx, rfl⟩
    refine List.mem_map_of_mem ?_
    exact List.mem_iff_getElem?.mpr ⟨i, List.getElem?_zip_eq_some.mpr ⟨he, hx⟩⟩

/-- A symbol is the only one on its line. -/
theorem alone (h : c.DrawnFrom d ids) {s : Symbol} (hs : s ∈ c.declared) :
    ∀ x ∈ c.declared, x.line = s.line → x = s := by
  intro x hx hline
  obtain ⟨i, e, y, he, hy, rfl⟩ := h.mem_declared_iff.mp hs
  obtain ⟨j, e', y', he', hy', rfl⟩ := h.mem_declared_iff.mp hx
  have hnodup : ((Outline.ofText d.content).declarations.map Declaration.line).Nodup :=
    (Outline.lines_sorted d.content).imp Int.ne_of_lt
  have hlines : ((Outline.ofText d.content).declarations.map Declaration.line)[j]? =
      ((Outline.ofText d.content).declarations.map Declaration.line)[i]? := by
    rw [List.getElem?_map, List.getElem?_map, he, he']
    exact congrArg some hline
  have hj : j < ((Outline.ofText d.content).declarations.map Declaration.line).length := by
    rw [List.length_map]
    exact (List.getElem?_eq_some_iff.mp he').1
  obtain rfl := (List.getElem?_inj hj hnodup).mp hlines
  obtain rfl := Option.some.inj (he'.symm.trans he)
  obtain rfl := Option.some.inj (hy'.symm.trans hy)
  rfl

end Snapshot.DrawnFrom

/-! ### Declarations that continue those of a snapshot -/

namespace Lineage

variable {l : Lineage} {d : Document} {ids : List String} {c : Snapshot}
  {after done rest : List Declaration} {e : Declaration} {p : Pass}

/-- How far the ids `ids` are carried over once some declarations are done. -/
structure Carries (l : Lineage) (ids : List String) (done : List Declaration) (p : Pass) :
    Prop where
  length : p.ids.length = done.length
  carried : p.ids.take ids.length = ids.take done.length
  lineage : done.length ≤ ids.length → p.lineage = l

theorem Carries.ids_eq (h : Carries l ids done p) (hi : done.length ≤ ids.length) :
    p.ids = ids.take done.length := by
  rw [← h.carried, List.take_of_length_le (h.length ▸ hi)]

section Step

variable (hdrawn : c.DrawnFrom d ids)
  (h : Continues (Outline.ofText d.content).declarations after) (hafter : after = done ++ e :: rest)
include hdrawn h hafter

/-- A declaration at an old place continues the symbol that stood there. -/
theorem Carries.continued_eq (hc : ContainersBefore after) (hp : p.Sound l c.declared)
    (hcarries : Carries l ids done p) (hi : done.length < ids.length) :
    ∃ s, s.id = ids[done.length] ∧
      continued c.declared after p.consumed e (e.container.bind (p.ids[·]?)) = some s := by
  have hd := List.getElem?_eq_getElem (hdrawn.length ▸ hi)
  have hx := List.getElem?_eq_getElem hi
  obtain ⟨e', he', hplace, hname⟩ := h.place _ _ hd
  obtain ⟨hkind, hline, hcontainer⟩ : _ ∧ _ ∧ _ := by
    simpa only [Declaration.place, Prod.mk.injEq] using hplace
  obtain rfl : e' = e := by simpa [hafter] using he'.symm
  have hids := hcarries.ids_eq (Nat.le_of_lt hi)
  have hmem : Snapshot.symbolOf d ids (_, ids[done.length]) ∈ c.declared :=
    hdrawn.mem_declared_iff.mpr ⟨_, _, _, hd, hx, rfl⟩
  refine ⟨_, rfl, continued_of_place hmem ?_ hkind.symm ?_ hline.symm ?_ fun hne => ?_⟩
  · -- ids are taken up in order, so this one was not taken up before
    intro hconsumed
    have htaken := ((hp.consumed _).mp hconsumed).2
    rw [hids, List.mem_take_iff_getElem] at htaken
    obtain ⟨j, hj, hsame⟩ := htaken
    have := hdrawn.nodup.getElem_inj_iff.mp hsame
    omega
  · -- the container is further up and has been given its old id
    simp only [Snapshot.symbolOf, Symbol.ofDeclaration, ← hcontainer, hids]
    cases hk : e'.container with
    | none => rfl
    | some k => simp [List.getElem?_take_of_lt (hc done e' rest hafter k hk)]
  · intro x hx hxline
    exact hdrawn.alone hmem x hx (hxline.trans hline)
  · obtain ⟨hnew, hgone⟩ := hname hne
    refine ⟨fun x hx => ?_, fun e₀ he₀ => Declaration.name_ne_of_label_notMem hgone he₀⟩
    obtain ⟨j, e₀, y, he₀, -, rfl⟩ := hdrawn.mem_declared_iff.mp hx
    exact Declaration.name_ne_of_label_notMem hnew (List.mem_of_getElem? he₀)

/-- A declaration that follows continues no symbol. -/
theorem Carries.continued_eq_none (hi : ids.length ≤ done.length) (consumed : List String)
    (container : Option String) : continued c.declared after consumed e container = none := by
  refine Option.eq_none_iff_forall_ne_some.mpr fun s hs => ?_
  obtain ⟨hmem, -, -, -, hline⟩ := continued_eq_some hs
  obtain ⟨j, e₀, y, he₀, -, rfl⟩ := hdrawn.mem_declared_iff.mp hmem
  refine h.apart done.length e (hdrawn.length ▸ hi) ?_ e₀ (List.mem_of_getElem? he₀) hline
  rw [hafter, List.getElem?_append_right (Nat.le_refl _), Nat.sub_self, List.getElem?_cons_zero]

/-- **One more declaration carries one more id over**, as long as there is one. -/
theorem Carries.assignOne (hc : ContainersBefore after) (hp : p.Sound l c.declared)
    (hcarries : Carries l ids done p) :
    Carries l ids (done ++ [e])
      (p.assignOne c.declared after e (e.container.bind (p.ids[·]?))) := by
  rcases Nat.lt_or_ge done.length ids.length with hi | hi
  · obtain ⟨s, hid, hs⟩ := hcarries.continued_eq hdrawn h hafter hc hp hi
    simp only [Pass.assignOne, hs, hid]
    refine ⟨by simp [hcarries.length], ?_, fun _ => hcarries.lineage (Nat.le_of_lt hi)⟩
    rw [hcarries.ids_eq (Nat.le_of_lt hi), List.take_append_getElem, List.length_append,
      List.length_singleton, List.take_take, Nat.min_eq_right hi]
  · simp only [Pass.assignOne, Carries.continued_eq_none hdrawn h hafter hi]
    refine ⟨by simp [hcarries.length], ?_, fun hle => ?_⟩
    · rw [List.take_append_of_le_length (hcarries.length ▸ hi), hcarries.carried,
        List.take_of_length_le hi, List.take_of_length_le (by simp; omega)]
    · rw [List.length_append, List.length_singleton] at hle
      omega

end Step

/-- **Ids are carried over** to declarations that continue those of a snapshot: the ids that the
snapshot has come first and in order.  No id is retired, and where nothing is added the lineage
stays as it is. -/
theorem assign_of_continues (l : Lineage) (hdrawn : c.DrawnFrom d ids)
    (h : Continues (Outline.ofText d.content).declarations after) (hc : ContainersBefore after) :
    ∃ fresh l', l.assign after (some c) = (.ok (ids ++ fresh), l') ∧
      (ids ++ fresh).length = after.length ∧ l'.retired = l.retired ∧
      (fresh = [] → l' = l) := by
  obtain ⟨p, hp, hlen, hcarries, heq⟩ := assign_eq l (some c) hc (Carries l ids)
    ⟨rfl, by simp, fun _ => rfl⟩ fun done e rest p hafter hp hcarries =>
      hcarries.assignOne hdrawn h hafter hc hp
  have hle : ids.length ≤ after.length := hdrawn.length ▸ h.length_le
  obtain ⟨fresh, hids⟩ : ids <+: p.ids := by
    rw [List.prefix_iff_eq_take, hcarries.carried, List.take_of_length_le hle]
  have hgone : goneIds (some c) p.ids = [] := by
    refine List.filter_eq_nil_iff.mpr fun x hx => ?_
    have hmem : x ∈ ids := hdrawn.declaredIds ▸ hx
    simp [← hids, hmem]
  rw [hgone] at heq
  refine ⟨fresh, p.lineage, hids ▸ heq, hids ▸ hlen, hp.retired, fun hf => ?_⟩
  refine hcarries.lineage ?_
  rw [← hlen, ← hids, hf, List.append_nil]

/-- The ids of a snapshot are assigned once more to the declarations that it was made of. -/
theorem assign_again (l : Lineage) (hdrawn : c.DrawnFrom d ids) :
    l.assign (Outline.ofText d.content).declarations (some c) = (.ok ids, l) := by
  obtain ⟨fresh, l', hassign, hlen, -, hsame⟩ := assign_of_continues l hdrawn
    (Continues.refl _) (containersBefore_ofText d.content)
  obtain rfl : fresh = [] := by
    rw [List.length_append, hdrawn.length] at hlen
    exact List.length_eq_zero_iff.mp (by omega)
  rw [hassign, hsame rfl, List.append_nil]

theorem drawnFrom_of_assign {previous : Option Snapshot} {l' : Lineage}
    (h : l.assign (Outline.ofText d.content).declarations previous = (.ok ids, l')) :
    (Snapshot.ofOutline d (Outline.ofText d.content) ids).DrawnFrom d ids := by
  obtain ⟨p, hp, hlen, -, heq⟩ := assign_eq l previous (containersBefore_ofText d.content)
    (fun _ _ => True) trivial fun _ _ _ _ _ _ _ => trivial
  rw [h] at heq
  have hids := congrArg Prod.fst heq
  cases hr : (p.lineage.retireAll (goneIds previous p.ids)).1 with
  | error e => simp [hr, Except.map] at hids
  | ok u =>
    obtain rfl : ids = p.ids := by simpa [hr, Except.map] using hids
    exact ⟨rfl, hp.nodup, hlen⟩

end Lineage

/-! ### Changes -/

/-- The renamings at the places of `before`, where `after` has other names. -/
def renamings (before after : List Declaration) (ids : List String) : List Change :=
  ((before.zip after).zip ids).filterMap fun ((d, e), x) =>
    if d.name = e.name then none else some (.renamed x d.name e.name)

/-- The additions of some declarations. -/
def additions (declarations : List Declaration) (ids : List String) : List Change :=
  (declarations.zip ids).map fun (e, x) => .added x e.name

/-- Against names known at the places of `before` only, `after` shows renamings there and additions
further on. -/
theorem filterMap_named {names : Entries String String} {fresh : List String}
    (hfresh : ∀ x ∈ fresh, names.get? x = none) (ids : List String) :
    ∀ before after : List Declaration, before.length = ids.length →
      (∀ e ∈ before.zip ids, names.get? e.2 = some e.1.name) →
      ((after.zip (ids ++ fresh)).map fun e => (e.2, e.1.name)).filterMap (fun e =>
        match names.get? e.1 with
        | none => some (.added e.1 e.2)
        | some name => if name = e.2 then none else some (.renamed e.1 name e.2)) =
      renamings before after ids ++ additions (after.drop ids.length) fresh := by
  induction ids with
  | nil =>
    intro before after _ _
    have hadded : ∀ e ∈ after.zip fresh, names.get? e.2 = none := fun e he =>
      hfresh e.2 (List.of_mem_zip he).2
    rw [List.nil_append, List.filterMap_map, renamings, List.zip_nil_right, List.filterMap_nil,
      List.nil_append, List.length_nil, List.drop_zero, additions, ← List.filterMap_eq_map]
    exact List.filterMap_congr fun e he => by simp [hadded e he]
  | cons x ids ih =>
    intro before after hlen hnames
    cases before with
    | nil => simp at hlen
    | cons d before =>
      rw [List.zip_cons_cons, List.forall_mem_cons] at hnames
      cases after with
      | nil => simp [renamings, additions]
      | cons e after =>
        have hrest := ih before after (by simpa using hlen) hnames.2
        rw [List.cons_append, List.zip_cons_cons, List.map_cons, List.filterMap_cons, hrest,
          List.length_cons, List.drop_succ_cons, renamings, renamings, List.zip_cons_cons,
          List.zip_cons_cons, List.filterMap_cons]
        by_cases hname : d.name = e.name <;> simp [hnames.1, hname]

namespace Snapshot

variable {d d' : Document} {ids fresh : List String} {c c' : Snapshot}

theorem DrawnFrom.ids_eq (h : c.DrawnFrom d ids) : c.ids = fileSymbolId d.fileId :: ids := by
  rw [h.eq]
  exact ids_ofOutline d h.length

/-- A snapshot of a file bears the file's own id nowhere else. -/
theorem DrawnFrom.fileSymbolId_notMem (h : c.DrawnFrom d ids) {f : String}
    (hidentified : Lineage.Identified f c) : fileSymbolId f ∉ ids := by
  intro hin
  rw [← h.declaredIds] at hin
  obtain ⟨x, hx, hid⟩ := List.mem_map.mp hin
  have hshape := shape_of_declared hidentified x hx
  rw [hid, Lineage.HasShape] at hshape
  split_ifs at hshape
  · exact (not_isIdOf_fileSymbolId f f).2 hshape
  · exact (not_isIdOf_fileSymbolId f f).1 hshape

/-- The names of a snapshot are those of the file and of the declarations, in order. -/
theorem DrawnFrom.names (h : c.DrawnFrom d ids) (hown : fileSymbolId d.fileId ∉ ids) :
    c.names.toList = (fileSymbolId d.fileId, fileName d.fileId) ::
      ((Outline.ofText d.content).declarations.zip ids).map fun e => (e.2, e.1.name) := by
  have hkeys : ((c.symbols.map fun x => (x.id, x.name)).map Prod.fst).Nodup := by
    have hids : c.ids.Nodup := h.ids_eq ▸ List.nodup_cons.mpr ⟨hown, h.nodup⟩
    rwa [List.map_map]
  rw [Snapshot.names, Entries.toList_ofList hkeys, h.eq, ofOutline, List.map_cons, List.map_map]
  rfl

/-- A snapshot that has all ids of another one shows no removal against it. -/
theorem removals_eq_nil (h : c.ids ⊆ c'.ids) : c.names.toList.filterMap (fun e =>
    if c'.names.has e.1 then none else some (Change.removed e.1 e.2)) = [] := by
  refine List.filterMap_eq_nil_iff.mpr fun e he => if_pos ?_
  have hkey : e.1 ∈ c.ids := by_contra fun hout => by
    rw [← get?_names_eq_none_iff, get?_names_of_mem he] at hout
    cases hout
  rw [Entries.has, Option.isSome_iff_ne_none, ne_eq, get?_names_eq_none_iff, not_not]
  exact h hkey

/-- **A snapshot that has the ids of another one and fresh ones shows renamings and additions**
against it, in this order and each in document order, and nothing else. -/
theorem changesTo_of_append (h : c.DrawnFrom d ids) (h' : c'.DrawnFrom d' (ids ++ fresh))
    (hfile : d'.fileId = d.fileId) (hown : fileSymbolId d.fileId ∉ ids ++ fresh) :
    c.changesTo c' =
      renamings (Outline.ofText d.content).declarations
          (Outline.ofText d'.content).declarations ids ++
        additions ((Outline.ofText d'.content).declarations.drop ids.length) fresh := by
  have hbefore := h.names fun hin => hown (List.mem_append_left fresh hin)
  have hafter := h'.names (hfile ▸ hown)
  have hget : ∀ e ∈ c.names.toList, c.names.get? e.1 = some e.2 := fun e => get?_names_of_mem
  rw [hbefore, List.forall_mem_cons, List.forall_mem_map] at hget
  have hfresh : ∀ x ∈ fresh, c.names.get? x = none := by
    intro x hx
    rw [get?_names_eq_none_iff, h.ids_eq, List.mem_cons, not_or]
    exact ⟨fun heq => hown (heq ▸ List.mem_append_right ids hx), fun hin =>
      (List.nodup_append.mp h'.nodup).2.2 x hin x hx rfl⟩
  have hsubset : c.ids ⊆ c'.ids := by
    rw [h.ids_eq, h'.ids_eq, hfile]
    exact List.cons_subset_cons _ (List.subset_append_left ids fresh)
  rw [changesTo, changesBetween, removals_eq_nil hsubset, hafter, List.nil_append,
    List.filterMap_cons, hfile, hget.1]
  dsimp only
  rw [if_pos rfl]
  exact filterMap_named hfresh ids _ _ h.length.symm hget.2

/-- Nothing changes from a snapshot to itself. -/
theorem changesTo_self (c : Snapshot) : c.changesTo c = [] := by
  rw [changesTo, changesBetween, removals_eq_nil (List.Subset.refl _), List.nil_append,
    List.filterMap_eq_nil_iff]
  exact fun e he => by simp [get?_names_of_mem he]

end Snapshot
end SymbolAtlas
