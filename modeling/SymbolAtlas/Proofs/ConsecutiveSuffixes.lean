import SymbolAtlas.Proofs.Places
import SymbolAtlas.Proofs.RetirementMemory
import SymbolAtlas.Proofs.Snapshot
import SymbolAtlas.Proofs.SuffixLedger

/-!
# Suffixes that follow each other

A lineage goes from text to text, each time with the snapshot of the text before.  As long as it
has room for all ids that it retires, the ids that it issues for one natural id are that id and then
its variants in order, without a gap (`Lineage.Thread.issued_consecutively`).

What has to be shown is that no suffix counter is lost, since a ledger is kept as long as counters
can be noted (`Lineage.Ledger.handOut`).  There is a counter for a natural id only if a declaration
has asked for it while it was in use.  This declaration stands on the line of the id, on which there
is no second one, so the id itself is carried over to none: it is retired already, or it will be at
the end of the pass (`Lineage.Settled.mem_leaving`).  Hence there are never more counters than ids
that are retired then, not even in the middle of a pass.
-/

namespace SymbolAtlas

/-! ### The line that an id tells -/

/-- The id is one of a declaration on the line. -/
def TellsLine (line : Int) (x : String) : Prop := ∃ id, OnLine line id ∧ IsVariant id x

theorem TellsLine.unique {line line' : Int} {x : String} (h : TellsLine line x)
    (h' : TellsLine line' x) : line = line' := by
  obtain ⟨id, hid, hx⟩ := h
  obtain ⟨id', hid', hx'⟩ := h'
  obtain rfl := hid.variant_unique hid' hx hx'
  exact hid.line_unique hid'

/-- Each id tells the line of its declaration. -/
def TellLines (done : List Declaration) (ids : List String) : Prop :=
  ∀ e ∈ done.zip ids, TellsLine e.1.line e.2

/-- Among the ids of a text there is one on each line. -/
theorem TellLines.eq_of_line {t : Text} {ids : List String}
    (h : TellLines (Outline.ofText t).declarations ids)
    (hlen : ids.length = (Outline.ofText t).declarations.length) {d : Declaration} {x y : String}
    (hx : (d, x) ∈ (Outline.ofText t).declarations.zip ids) (hy : y ∈ ids)
    (hline : TellsLine d.line y) : y = x := by
  have hsnd : ((Outline.ofText t).declarations.zip ids).map Prod.snd = ids :=
    List.map_snd_zip (Nat.le_of_eq hlen)
  rw [← hsnd] at hy
  obtain ⟨⟨e, y⟩, he, rfl⟩ := List.mem_map.mp hy
  have hlines : ((Outline.ofText t).declarations.zip ids).map (fun e => e.1.line) =
      (Outline.ofText t).declarations.map Declaration.line := by
    have hfst : ((Outline.ofText t).declarations.zip ids).map Prod.fst =
        (Outline.ofText t).declarations := List.map_fst_zip (Nat.le_of_eq hlen.symm)
    exact (List.map_map ..).symm.trans (congrArg (List.map Declaration.line) hfst)
  have hnodup := (Outline.lines_sorted t).imp Int.ne_of_lt
  rw [← hlines] at hnodup
  exact congrArg Prod.snd (List.inj_on_of_nodup_map hnodup he hx ((h _ he).unique hline))

namespace Lineage

variable {d : Declaration} {after before done : List Declaration} {t : Text} {p : Pass}
  {ids : List String} {x : String} {n : Nat}

/-! ### Passes declaration by declaration -/

section

variable {previous : List Symbol} {declarations : List Declaration}

theorem Pass.assignAll_append (done rest : List Declaration) :
    ∀ p q : Pass, p.assignAll previous declarations done = (q, none) →
      p.assignAll previous declarations (done ++ rest) =
        q.assignAll previous declarations rest := by
  induction done with
  | nil =>
    intro p q h
    obtain rfl : p = q := congrArg Prod.fst h
    rfl
  | cons d done ih =>
    intro p q h
    rw [Pass.assignAll] at h
    rw [List.cons_append, Pass.assignAll]
    split at h
    · cases h
    · exact ih _ q h

theorem Pass.ids_prefix_assignAll (p : Pass) (rest : List Declaration) :
    p.ids <+: (p.assignAll previous declarations rest).1.ids := by
  refine Pass.assignAll_keeps (P := fun q => p.ids <+: q.ids) rest
    (fun q d container _ _ hq => ?_) p (List.prefix_refl _)
  rcases q.assignOne_cases previous declarations d container with ⟨s, -, heq⟩ | ⟨x, l', -, heq⟩
  · rw [heq]
    exact hq.trans (List.prefix_append ..)
  · rw [heq]
    exact hq.trans (List.prefix_append ..)

end

section

variable (l : Lineage) {declarations : List Declaration} (previous : Option Snapshot)

/-- A pass goes on with the next declaration. -/
theorem passUpTo_concat (hc : ContainersBefore declarations)
    (hdecl : declarations = before ++ d :: after)
    (hpass : l.passUpTo declarations previous before = (p, none))
    (hlen : p.ids.length = before.length) :
    l.passUpTo declarations previous (before ++ [d]) =
      (p.assignOne ((previous.map Snapshot.declared).getD []) declarations d
        (d.container.bind (p.ids[·]?)), none) := by
  have hcontainer := containerId_of_lt fun c h => hlen ▸ hc before d after hdecl c h
  rw [passUpTo, Pass.assignAll_append before [d] _ p hpass, Pass.assignAll, hcontainer]
  rfl

/-- **Any property that one declaration keeps holds all through a pass**; the induction is on the
declarations done. -/
theorem passUpTo_induction (hc : ContainersBefore declarations) (P : List Declaration → Pass → Prop)
    (start : P [] ⟨l, previousIds previous, [], []⟩)
    (step : ∀ before d after, declarations = before ++ d :: after → ∀ p,
      l.passUpTo declarations previous before = (p, none) → p.ids.length = before.length →
      P before p → P (before ++ [d]) (p.assignOne ((previous.map Snapshot.declared).getD [])
        declarations d (d.container.bind (p.ids[·]?)))) (done : List Declaration) :
    done <+: declarations → ∃ p, l.passUpTo declarations previous done = (p, none) ∧
      p.ids.length = done.length ∧ P done p := by
  induction done using List.reverseRecOn with
  | nil => exact fun _ => ⟨_, rfl, rfl, start⟩
  | append_singleton before d ih =>
    rintro ⟨after, hdecl⟩
    rw [List.append_assoc, List.singleton_append] at hdecl
    obtain ⟨p, hpass, hlen, hP⟩ := ih ⟨d :: after, hdecl⟩
    refine ⟨_, passUpTo_concat l previous hc hdecl.symm hpass hlen, ?_,
      step before d after hdecl.symm p hpass hlen hP⟩
    rcases p.assignOne_cases ((previous.map Snapshot.declared).getD []) declarations d
      (d.container.bind (p.ids[·]?)) with ⟨s, -, heq⟩ | ⟨x, l', -, heq⟩ <;> simp [heq, hlen]

/-- Where containers come first a pass does not fail. -/
theorem exists_passUpTo (hc : ContainersBefore declarations) (hdone : done <+: declarations) :
    ∃ p, l.passUpTo declarations previous done = (p, none) := by
  obtain ⟨p, hpass, -⟩ := passUpTo_induction l previous hc (fun _ _ => True) trivial
    (fun _ _ _ _ _ _ _ _ => trivial) done hdone
  exact ⟨p, hpass⟩

/-- What was assigned stays. -/
theorem ids_prefix_passUpTo (hc : ContainersBefore declarations) (hdone : done <+: declarations) :
    (l.passUpTo declarations previous done).1.ids <+:
      (l.passUpTo declarations previous declarations).1.ids := by
  obtain ⟨p, hpass⟩ := exists_passUpTo l previous hc hdone
  obtain ⟨rest, hrest⟩ := hdone
  have hall : l.passUpTo declarations previous declarations = _ :=
    hrest ▸ Pass.assignAll_append done rest _ p hpass
  rw [hpass, hall]
  exact p.ids_prefix_assignAll rest

end

/-- **One more declaration is given an id that tells its line**, be it new or carried over from a
symbol on that line. -/
theorem tellLines_assignOne {previous : List Symbol}
    (hprevious : ∀ s ∈ previous, TellsLine s.line s.id)
    (hdecl : (Outline.ofText t).declarations = before ++ d :: after)
    (hlen : p.ids.length = before.length) (h : TellLines before p.ids) :
    TellLines (before ++ [d])
      (p.assignOne previous (Outline.ofText t).declarations d
        (d.container.bind (p.ids[·]?))).ids := by
  have hadd : ∀ x, TellsLine d.line x → TellLines (before ++ [d]) (p.ids ++ [x]) := by
    intro x hx
    rw [TellLines, List.zip_append hlen.symm]
    exact List.forall_mem_append.mpr ⟨h, by simpa using hx⟩
  rcases p.assignOne_cases previous (Outline.ofText t).declarations d
    (d.container.bind (p.ids[·]?)) with ⟨s, hs, heq⟩ | ⟨x, l', hx, heq⟩
  · obtain ⟨hmem, -, -, -, hline⟩ := continued_eq_some hs
    rw [heq]
    exact hadd s.id (hline ▸ hprevious s hmem)
  · have hvariant := (unused_fresh p.lineage p.taken
      (naturalId p.lineage.fileId d.name d.line (d.container.bind (p.ids[·]?)))).1
    rw [hx] at hvariant
    have hpos := (Outline.placed_of_mem t hdecl).line_pos
    rw [heq]
    exact hadd x ⟨_, onLine_naturalId _ _ (by omega) _, hvariant⟩

/-! ### What a pass issues -/

/-- The ids of the declarations `done` that are not carried over, each behind the natural id that
its declaration asks for. -/
def issuedIn (fileId : String) (previous : Option Snapshot) (done : List Declaration)
    (ids : List String) : List (String × String) :=
  ((done.zip ids).filter (·.2 ∉ previousIds previous)).map fun e =>
    (naturalId fileId e.1.name e.1.line (e.1.container.bind (ids[·]?)), e.2)

theorem issuedIn_concat (f : String) (previous : Option Snapshot)
    {declarations : List Declaration} (hc : ContainersBefore declarations)
    (hdecl : declarations = before ++ d :: after) (hlen : ids.length = before.length) (x : String) :
    issuedIn f previous (before ++ [d]) (ids ++ [x]) = issuedIn f previous before ids ++
      if x ∈ previousIds previous then []
      else [(naturalId f d.name d.line (d.container.bind (ids[·]?)), x)] := by
  rw [issuedIn, List.zip_append hlen.symm, List.filter_append, List.map_append]
  congr 1
  · refine List.map_congr_left fun e he => ?_
    rw [bind_container_append fun c h =>
      hlen ▸ hc.lt_length hdecl (List.of_mem_zip (List.mem_filter.mp he).1).1 h]
  · have hcontainer := bind_container_append (fun c h => hlen ▸ hc before d after hdecl c h) x
    by_cases hx : x ∈ previousIds previous <;> simp [hx, hcontainer]

theorem map_snd_issuedIn (f : String) (previous : Option Snapshot)
    (hlen : ids.length = done.length) :
    (issuedIn f previous done ids).map Prod.snd = ids.filter (· ∉ previousIds previous) := by
  have hsnd : (done.zip ids).map Prod.snd = ids := List.map_snd_zip (Nat.le_of_eq hlen)
  rw [issuedIn, List.map_map]
  conv_rhs => rw [← hsnd, List.filter_map]
  rfl

/-! ### One call -/

/-- The log of what was issued, as it has to be when a lineage is called with a snapshot. -/
structure Settled (log : List (String × String)) (l : Lineage) (previous : Option Snapshot) :
    Prop where
  ledger : Ledger log l.suffixes
  /-- The ids that were issued are live or retired. -/
  used : ∀ x, x ∈ log.map Prod.snd ↔ x ∈ previousIds previous ∨ x ∈ l.retired
  /-- An id that has a counter is retired. -/
  displaced : ∀ id ∈ l.suffixes.keys, id ∈ l.retired
  nodup : l.retired.Nodup
  lines : ∀ s ∈ (previous.map Snapshot.declared).getD [], TellsLine s.line s.id

/-- The ids that the declarations of a text are assigned. -/
def passIds (l : Lineage) (t : Text) (previous : Option Snapshot) : List String :=
  (l.passUpTo (Outline.ofText t).declarations previous (Outline.ofText t).declarations).1.ids

/-- The retired ids, and those that will be once the declarations of a text are assigned ids. -/
def leaving (l : Lineage) (t : Text) (previous : Option Snapshot) : List String :=
  l.retired ++ goneIds previous (l.passIds t previous)

/-- How a log goes on in the middle of a pass. -/
structure Booked (log : List (String × String)) (l : Lineage) (t : Text)
    (previous : Option Snapshot) (done : List Declaration) (p : Pass) : Prop where
  ledger : Ledger (log ++ issuedIn l.fileId previous done p.ids) p.lineage.suffixes
  displaced : ∀ id ∈ p.lineage.suffixes.keys, id ∈ l.leaving t previous

/-- The id that the next declaration is given is its id in the end. -/
theorem mem_zip_passIds {l : Lineage} {previous : Option Snapshot}
    (hdecl : (Outline.ofText t).declarations = before ++ d :: after)
    (hpass : l.passUpTo (Outline.ofText t).declarations previous (before ++ [d]) = (p, none))
    (hlen : ids.length = before.length) (hids : p.ids = ids ++ [x]) :
    (d, x) ∈ (Outline.ofText t).declarations.zip (l.passIds t previous) := by
  have hdone : before ++ [d] <+: (Outline.ofText t).declarations := ⟨after, by simp [hdecl]⟩
  have hfinal := ids_prefix_passUpTo l previous (containersBefore_ofText t) hdone
  rw [hpass, hids] at hfinal
  obtain ⟨more, hmore⟩ := hfinal
  have hall : l.passIds t previous = ids ++ x :: more := by
    rw [passIds, ← hmore, List.append_assoc, List.singleton_append]
  rw [hdecl, hall, List.zip_append hlen.symm]
  exact List.mem_append_right _ (List.mem_cons_self ..)

/-- With room for some ids there is room for their counters. -/
theorem size_putLast_le {suffixes : Entries String Nat} (hnodup : suffixes.keys.Nodup)
    {all : List String} (hall : ∀ id ∈ suffixes.keys, id ∈ all) {id : String} (hid : id ∈ all)
    {capacity : Int} (hroom : (all.dedup.length : Int) ≤ capacity) (n : Nat) :
    ((suffixes.putLast id n).size : Int) ≤ capacity := by
  have hsub : (suffixes.putLast id n).keys ⊆ all.dedup := by
    intro k hk
    rw [Entries.keys_putLast] at hk
    rcases List.mem_append.mp hk with hk | hk
    · exact List.mem_dedup.mpr (hall k ((List.filter_sublist.map Prod.fst).subset hk))
    · exact List.mem_dedup.mpr (List.mem_singleton.mp hk ▸ hid)
  have hlen := ((Entries.nodup_keys_putLast hnodup id n).subperm hsub).length_le
  have hsize : (suffixes.putLast id n).keys.length = (suffixes.putLast id n).size :=
    List.length_map ..
  omega

section

variable {l : Lineage} {t : Text} {previous : Option Snapshot} {log : List (String × String)}
  (h : Settled log l previous)
include h

/-- The ids that the declarations of a text are assigned tell their lines. -/
theorem Settled.tellLines (t : Text) :
    (l.passIds t previous).length = (Outline.ofText t).declarations.length ∧
      TellLines (Outline.ofText t).declarations (l.passIds t previous) := by
  obtain ⟨p, hpass, hlen, hlines⟩ := passUpTo_induction l previous (containersBefore_ofText t)
    (fun done p => TellLines done p.ids) (by simp [TellLines])
    (fun before d after hdecl p _ hlen hlines => tellLines_assignOne h.lines hdecl hlen hlines)
    _ (List.prefix_refl _)
  rw [passIds, hpass]
  exact ⟨hlen, hlines⟩

/-- **An id in use that a declaration on its line does not get** is retired, or will be. -/
theorem Settled.mem_leaving {c : String}
    (hx : (d, x) ∈ (Outline.ofText t).declarations.zip (l.passIds t previous))
    (hline : TellsLine d.line c) (hne : c ≠ x)
    (hused : (c ∈ previousIds previous ∨ c ∈ l.passIds t previous) ∨ c ∈ l.retired) :
    c ∈ l.leaving t previous := by
  obtain ⟨hlen, hlines⟩ := h.tellLines t
  have hout : c ∉ l.passIds t previous := fun hin => hne (hlines.eq_of_line hlen hx hin hline)
  rcases hused with (hprev | hin) | hretired
  · exact List.mem_append_right _ (List.mem_filter.mpr ⟨hprev, decide_eq_true hout⟩)
  · exact absurd hin hout
  · exact List.mem_append_left _ hretired

/-- The ids in use in the middle of a pass are those that were issued. -/
theorem Settled.used_passUpTo
    (hpass : l.passUpTo (Outline.ofText t).declarations previous done = (p, none))
    (hlen : p.ids.length = done.length) (x : String) :
    x ∈ (log ++ issuedIn l.fileId previous done p.ids).map Prod.snd ↔
      x ∈ p.taken ∨ x ∈ p.lineage.retired := by
  have hsound := sound_passUpTo l (Outline.ofText t).declarations previous done
  rw [hpass] at hsound
  have htaken : x ∈ p.taken ↔ x ∈ previousIds previous ∨ x ∈ p.ids := hsound.taken x
  rw [List.map_append, List.mem_append, map_snd_issuedIn l.fileId previous hlen, List.mem_filter,
    decide_eq_true_eq, h.used x, htaken, hsound.retired]
  tauto

section

variable {before after : List Declaration} {d : Declaration} {p : Pass}
  (hdecl : (Outline.ofText t).declarations = before ++ d :: after)
  (hpass : l.passUpTo (Outline.ofText t).declarations previous before = (p, none))
  (hlen : p.ids.length = before.length) (hp : Booked log l t previous before p)
include hdecl hpass hlen hp

/-- A natural id that was issued before is leaving when a declaration asks for it and gets `x`. -/
theorem Booked.mem_leaving {id : String} (hline : OnLine d.line id)
    (hx : (p.lineage.unused p.taken id).1 = x)
    (hzip : (d, x) ∈ (Outline.ofText t).declarations.zip (l.passIds t previous))
    (hgiven : given (log ++ issuedIn l.fileId previous before p.ids) id ≠ []) :
    id ∈ l.leaving t previous := by
  have hsound := sound_passUpTo l (Outline.ofText t).declarations previous before
  have hids := ids_prefix_passUpTo l previous (containersBefore_ofText t)
    ⟨d :: after, hdecl.symm⟩
  rw [hpass] at hsound hids
  have hinUse := (h.used_passUpTo hpass hlen id).mp
    (hp.ledger.mem_of_lt (n := 0) (List.length_pos_iff.mpr hgiven))
  refine h.mem_leaving hzip ⟨id, hline, Or.inl rfl⟩ ?_ ?_
  · rintro rfl
    obtain ⟨-, htaken, hretired⟩ := unused_fresh p.lineage p.taken id
    rw [hx] at htaken hretired
    exact hinUse.elim htaken hretired
  · exact hinUse.imp (fun hin => ((hsound.taken id).mp hin).imp_right fun hin => hids.subset hin)
      fun hin => hsound.retired ▸ hin

/-- **One more declaration leaves the log in order.**  If it carries no id over, it is given the
next variant of its natural id; in case that this id was issued before, it is leaving, and so there
is room for its counter. -/
theorem Booked.assignOne (hroom : ((l.leaving t previous).dedup.length : Int) ≤ l.capacity) :
    Booked log l t previous (before ++ [d])
      (p.assignOne ((previous.map Snapshot.declared).getD []) (Outline.ofText t).declarations d
        (d.container.bind (p.ids[·]?))) := by
  have hc := containersBefore_ofText t
  have hsound := sound_passUpTo l (Outline.ofText t).declarations previous before
  rw [hpass] at hsound
  rcases p.assignOne_cases ((previous.map Snapshot.declared).getD [])
    (Outline.ofText t).declarations d (d.container.bind (p.ids[·]?)) with
    ⟨s, hs, heq⟩ | ⟨x, l', hx, heq⟩
  · have hprev : s.id ∈ previousIds previous := List.mem_map_of_mem (continued_eq_some hs).1
    have hissued := issuedIn_concat l.fileId previous hc hdecl hlen s.id
    rw [if_pos hprev, List.append_nil] at hissued
    rw [heq]
    exact ⟨hissued ▸ hp.ledger, hp.displaced⟩
  · rw [hsound.fileId] at hx
    have hissued := issuedIn_concat l.fileId previous hc hdecl hlen x
    have hline : OnLine d.line
        (naturalId l.fileId d.name d.line (d.container.bind (p.ids[·]?))) := by
      have hpos := (Outline.placed_of_mem t hdecl).line_pos
      exact onLine_naturalId _ _ (by omega) _
    generalize naturalId l.fileId d.name d.line (d.container.bind (p.ids[·]?)) = id at *
    have hnot : x ∉ previousIds previous := by
      obtain ⟨-, htaken, -⟩ := unused_fresh p.lineage p.taken id
      rw [hx] at htaken
      exact fun hin => htaken ((hsound.taken x).mpr (Or.inl hin))
    have hzip := mem_zip_passIds hdecl (passUpTo_concat l previous hc hdecl hpass hlen) hlen
      (congrArg Pass.ids heq)
    have hleaving := hp.mem_leaving h hdecl hpass hlen hline (congrArg Prod.fst hx) hzip
    obtain ⟨-, hledger⟩ := hp.ledger.handOut hline (h.used_passUpTo hpass hlen) fun hgiven n =>
      size_putLast_le hp.ledger.nodup hp.displaced (hleaving hgiven) (hsound.capacity ▸ hroom) n
    rw [hx] at hledger
    rw [heq]
    refine ⟨?_, fun id' hid' => ?_⟩
    · rw [hissued, if_neg hnot, ← List.append_assoc]
      exact hledger
    · have hmany := hledger.mem_keys_iff.mp hid'
      by_cases hne : id = id'
      · rw [← hne, given_concat_self, List.length_append, List.length_singleton] at hmany
        exact hne ▸ hleaving (List.length_pos_iff.mp (by omega))
      · rw [given_concat_of_ne _ hne] at hmany
        exact hp.displaced id' (hp.ledger.mem_keys_iff.mpr hmany)

end
end

/-- With room for all of them, retiring ids costs no counter. -/
theorem suffixes_foldl_retire {all : List String} {gone : List String} :
    ∀ {l : Lineage}, (all.dedup.length : Int) ≤ l.capacity → gone ⊆ all → l.retired ⊆ all →
      l.retired.Nodup → (gone.foldl retire l).suffixes = l.suffixes := by
  induction gone with
  | nil => exact fun _ _ _ _ => rfl
  | cons id gone ih =>
    intro l hroom hgone hretired hnodup
    obtain ⟨hid, hgone⟩ := List.cons_subset.mp hgone
    obtain ⟨hrest, hsub, hzero⟩ := fits_of_room hroom hretired hnodup hid
    have hretire : l.retire id = { l with retired := l.retired.filter (· ≠ id) ++ [id] } := by
      simp only [retire, hzero, List.take_zero, List.foldl_nil, List.drop_zero]
    rw [List.foldl_cons, hretire]
    exact ih hroom hgone hsub hrest

/-- A lineage as it stands in the middle of a call: after some of the declarations, or after some of
the ids that are retired.  The log says what was issued in the call until then. -/
inductive Midway (l : Lineage) (declarations : List Declaration) (previous : Option Snapshot) :
    List (String × String) → Lineage → Prop
  | assigning (done rest : List Declaration) (h : declarations = done ++ rest) :
    Midway l declarations previous
      (issuedIn l.fileId previous done (l.passUpTo declarations previous done).1.ids)
      (l.passUpTo declarations previous done).1.lineage
  | retiring (out left : List String)
      (h : goneIds previous (l.passUpTo declarations previous declarations).1.ids = out ++ left) :
    Midway l declarations previous
      (issuedIn l.fileId previous declarations
        (l.passUpTo declarations previous declarations).1.ids)
      (out.foldl retire (l.passUpTo declarations previous declarations).1.lineage)

section

variable {l : Lineage} {previous : Option Snapshot} {log : List (String × String)}
  (h : Settled log l previous)
include h

theorem Settled.booked (hroom : ((l.leaving t previous).dedup.length : Int) ≤ l.capacity)
    (hdone : done <+: (Outline.ofText t).declarations) :
    Booked log l t previous done
      (l.passUpTo (Outline.ofText t).declarations previous done).1 := by
  obtain ⟨p, hpass, -, hp⟩ := passUpTo_induction l previous
    (containersBefore_ofText t) (Booked log l t previous)
    ⟨by simpa [issuedIn] using h.ledger, fun id hid => List.mem_append_left _ (h.displaced id hid)⟩
    (fun before d after hdecl p hpass hlen hp => hp.assignOne h hdecl hpass hlen hroom) done hdone
  rw [hpass]
  exact hp

theorem Settled.suffixes_retiring
    (hroom : ((l.leaving t previous).dedup.length : Int) ≤ l.capacity) {out : List String}
    (hout : out ⊆ l.leaving t previous) (done : List Declaration) :
    (out.foldl retire
        (l.passUpTo (Outline.ofText t).declarations previous done).1.lineage).suffixes =
      (l.passUpTo (Outline.ofText t).declarations previous done).1.lineage.suffixes := by
  have hp := sound_passUpTo l (Outline.ofText t).declarations previous done
  exact suffixes_foldl_retire (hp.capacity.symm ▸ hroom) hout
    (hp.retired.symm ▸ List.subset_append_left ..) (hp.retired.symm ▸ h.nodup)

/-- **All through a call the log is in order.** -/
theorem Settled.ledger_of_midway
    (hroom : ((l.leaving t previous).dedup.length : Int) ≤ l.capacity)
    {new : List (String × String)} {m : Lineage}
    (hm : Midway l (Outline.ofText t).declarations previous new m) :
    Ledger (log ++ new) m.suffixes := by
  cases hm with
  | assigning done rest hdone => exact (h.booked hroom ⟨rest, hdone.symm⟩).ledger
  | retiring out left hgone =>
    have hout : out ⊆ l.leaving t previous := fun x hx =>
      List.mem_append_right _ (hgone.symm ▸ List.mem_append_left left hx)
    rw [h.suffixes_retiring hroom hout]
    exact (h.booked hroom (List.prefix_refl _)).ledger

/-- **A call keeps the log in order.** -/
theorem Settled.next {d : Document}
    (hroom : ((l.leaving d.content previous).dedup.length : Int) ≤ l.capacity) :
    Settled (log ++ issuedIn l.fileId previous (Outline.ofText d.content).declarations
        (l.passIds d.content previous))
      ((goneIds previous (l.passIds d.content previous)).foldl retire
        (l.passUpTo (Outline.ofText d.content).declarations previous
          (Outline.ofText d.content).declarations).1.lineage)
      (some (.ofOutline d (Outline.ofText d.content) (l.passIds d.content previous))) := by
  have hp := sound_passUpTo l (Outline.ofText d.content).declarations previous
    (Outline.ofText d.content).declarations
  obtain ⟨hlen, hlines⟩ := h.tellLines d.content
  have hgone : goneIds previous (l.passIds d.content previous) ⊆ l.leaving d.content previous :=
    List.subset_append_right ..
  obtain ⟨hnodup, hmem⟩ := foldl_keepRecent hroom hgone (List.subset_append_left ..) h.nodup
  have hretired := (foldl_retire (goneIds previous (l.passIds d.content previous))
    (l.passUpTo (Outline.ofText d.content).declarations previous
      (Outline.ofText d.content).declarations).1.lineage).2.2
  rw [hp.capacity, hp.retired] at hretired
  refine ⟨h.ledger_of_midway hroom (.retiring _ [] (List.append_nil _).symm), fun x => ?_,
    fun id hid => ?_, hretired ▸ hnodup, fun s hs => ?_⟩
  · have hcurrent : previousIds (some (.ofOutline d (Outline.ofText d.content)
        (l.passIds d.content previous))) = l.passIds d.content previous :=
      Snapshot.declaredIds_ofOutline d hlen
    rw [List.map_append, List.mem_append, map_snd_issuedIn l.fileId previous hlen, List.mem_filter,
      decide_eq_true_eq, h.used x, hcurrent, hretired, hmem x, goneIds, List.mem_filter,
      decide_eq_true_eq]
    tauto
  · rw [h.suffixes_retiring hroom hgone] at hid
    rw [hretired, hmem id]
    exact List.mem_append.mp ((h.booked hroom (List.prefix_refl _)).displaced id hid)
  · rw [Option.map_some, Option.getD_some, Snapshot.declared_ofOutline] at hs
    obtain ⟨e, he, rfl⟩ := List.mem_map.mp hs
    exact hlines e he

end

/-! ### From text to text -/

/-- A call with the outline of a document and the last snapshot. -/
def Reading.ofDocument (d : Document) : Reading := ⟨d, .ofText d.content, false⟩

namespace Thread

/-- The ids that a call issues. -/
def issues (th : Thread) (r : Reading) : List (String × String) :=
  match (th.assign r).1 with
  | .ok ids => issuedIn th.lineage.fileId (th.previous r) r.outline.declarations ids
  | .error _ => []

/-- The ids that some calls issue, in the order of their assignment. -/
def issued (th : Thread) (rs : List Reading) : List (String × String) := th.collect issues rs

/-- A lineage as it stands somewhere in some calls, and what was issued until then. -/
def Stage (th : Thread) (rs : List Reading) (log : List (String × String)) (l : Lineage) : Prop :=
  ∃ before r after new, rs = before ++ r :: after ∧ log = th.issued before ++ new ∧
    Midway (th.run before).lineage r.outline.declarations ((th.run before).previous r) new l

section

variable {th : Thread} (hcap : 0 ≤ th.lineage.capacity) (d : Document)
include hcap

theorem assign_ofDocument :
    th.assign (.ofDocument d) = (.ok (th.lineage.passIds d.content th.current),
      (goneIds th.current (th.lineage.passIds d.content th.current)).foldl retire
        (th.lineage.passUpTo (Outline.ofText d.content).declarations th.current
          (Outline.ofText d.content).declarations).1.lineage) := by
  obtain ⟨p, hpass⟩ := exists_passUpTo th.lineage th.current (containersBefore_ofText d.content)
    (List.prefix_refl _)
  rw [passIds, hpass]
  exact assign_eq_of_passUpTo hcap hpass

theorem retires_ofDocument : th.retires (.ofDocument d) =
    goneIds th.current (th.lineage.passIds d.content th.current) := by
  rw [retires, assign_ofDocument hcap d]
  rfl

theorem settled_next {log : List (String × String)} (h : Settled log th.lineage th.current)
    (hroom : ((th.lineage.leaving d.content th.current).dedup.length : Int) ≤
      th.lineage.capacity) :
    Settled (log ++ th.issues (.ofDocument d)) (th.next (.ofDocument d)).lineage
      (th.next (.ofDocument d)).current := by
  rw [issues, Thread.next, assign_ofDocument hcap d]
  exact h.next hroom

end

theorem length_dedup_le {xs ys : List String} (h : xs ⊆ ys) :
    xs.dedup.length ≤ ys.dedup.length :=
  ((List.nodup_dedup xs).subperm fun _ hx =>
    List.mem_dedup.mpr (h (List.mem_dedup.mp hx))).length_le

/-- With room for all retirements there is room for what is retired and what will be. -/
theorem Kept.leaving_room {log : List String} {th : Thread} (h : Kept n log th) {d : Document}
    (hroom : (log ++ th.retires (.ofDocument d)).dedup.length ≤ n) :
    ((th.lineage.leaving d.content th.current).dedup.length : Int) ≤ th.lineage.capacity := by
  rw [retires_ofDocument h.capacity_nonneg] at hroom
  have hsub : th.lineage.leaving d.content th.current ⊆
      log ++ goneIds th.current (th.lineage.passIds d.content th.current) := by
    rw [leaving, h.recent]
    refine List.append_subset.mpr ⟨fun x hx => ?_, List.subset_append_right ..⟩
    exact List.mem_append_left _ (List.mem_dedup.mp (List.mem_of_mem_drop hx))
  rw [h.capacity]
  exact Int.ofNat_le.mpr ((length_dedup_le hsub).trans hroom)

/-- What a run has room for, each beginning of it has room for. -/
theorem room_of_beginning {th : Thread} {before rs : List Reading} (hrs : before <+: rs)
    (h : (th.retirements rs).dedup.length ≤ n) : (th.retirements before).dedup.length ≤ n := by
  obtain ⟨after, rfl⟩ := hrs
  rw [retirements, collect_append] at h
  exact (length_dedup_le (List.subset_append_left ..)).trans h

/-- **A run keeps the log in order** as long as there is room; the induction is on its calls. -/
theorem settled_run (f : String) (n : Nat) (ds : List Document)
    (h : ((new f n).retirements (ds.map .ofDocument)).dedup.length ≤ n) :
    Settled ((new f n).issued (ds.map .ofDocument))
      ((new f n).run (ds.map .ofDocument)).lineage
      ((new f n).run (ds.map .ofDocument)).current := by
  induction ds using List.reverseRecOn with
  | nil =>
    exact ⟨ledger_nil, fun x => by simp [issued, collect, previousIds, new, run, Lineage.new],
      fun id hid => (by cases hid), List.nodup_nil, fun s hs => (by cases hs)⟩
  | append_singleton ds d ih =>
    rw [List.map_append, List.map_singleton] at h ⊢
    have hkept := kept_run f n (ds.map .ofDocument)
    rw [issued, run_concat, collect_concat]
    rw [retirements, collect_concat] at h
    refine settled_next hkept.capacity_nonneg d (ih ?_) (hkept.leaving_room h)
    exact (length_dedup_le (List.subset_append_left ..)).trans h

/-- All through a run the log is in order. -/
theorem ledger_of_stage {f : String} {ds : List Document}
    (h : ((new f n).retirements (ds.map .ofDocument)).dedup.length ≤ n)
    {log : List (String × String)} {l : Lineage} (hl : (new f n).Stage (ds.map .ofDocument) log l) :
    Ledger log l.suffixes := by
  obtain ⟨before, r, after, issued, hrs, rfl, hm⟩ := hl
  obtain ⟨ds₁, ds₂, rfl, rfl, hds₂⟩ := List.map_eq_append_iff.mp hrs
  obtain ⟨d, ds₃, rfl, rfl, rfl⟩ := List.map_eq_cons_iff.mp hds₂
  have hsettled := settled_run f n ds₁ (room_of_beginning ⟨_, hrs.symm⟩ h)
  have hbeginning : ds₁.map .ofDocument ++ [.ofDocument d] <+:
      (ds₁ ++ d :: ds₃).map Reading.ofDocument :=
    ⟨ds₃.map .ofDocument, by rw [hrs, List.append_assoc, List.singleton_append]⟩
  have hroom := room_of_beginning hbeginning h
  rw [retirements, collect_concat] at hroom
  exact hsettled.ledger_of_midway ((kept_run f n _).leaving_room hroom) hm

/-- **Suffixes are handed out consecutively.**  Let a lineage go from text to text, and let it have
room for all ids that it retires.  Then each call returns, the ids that are issued for a natural id
are the id itself, then the variants from `#2` on in order, and at no time a counter is missing of
an id that was issued with a suffix. -/
theorem issued_consecutively (f : String) (capacity : Int) (ds : List Document)
    (h : (((new f capacity).retirements (ds.map .ofDocument)).dedup.length : Int) ≤ capacity) :
    (∀ id, ∃ n, given ((new f capacity).issued (ds.map .ofDocument)) id =
        (List.range n).map (nthVariant id)) ∧
      (∀ log l, (new f capacity).Stage (ds.map .ofDocument) log l →
        ∀ id n, (id, withSuffix id n) ∈ log → id ∈ l.suffixes.keys) ∧
      ∀ d, ∃ ids, (((new f capacity).run (ds.map .ofDocument)).assign (.ofDocument d)).1 =
        .ok ids := by
  obtain ⟨n, rfl⟩ := Int.eq_ofNat_of_zero_le (Int.le_trans (Int.natCast_nonneg _) h)
  have hroom := Int.ofNat_le.mp h
  have hkept := kept_run f n (ds.map .ofDocument)
  refine ⟨fun id => ⟨_, (settled_run f n ds hroom).ledger.consecutive id⟩,
    fun log l hl id k hk => (ledger_of_stage hroom hl).mem_keys_of_withSuffix hk, fun d => ?_⟩
  exact ⟨_, congrArg Prod.fst (assign_ofDocument hkept.capacity_nonneg d)⟩

/-- A class and its method, then a function that asks for the id of the class while the class is
still live, then the class again. -/
def classThenFunction : List Document :=
  ["class A \x7b\n" ++ "  m() {}\n" ++ "\x7d", "function A() {}",
    "class A \x7b\n" ++ "  m() {}\n" ++ "\x7d"].map fun t => ⟨"a.ts", t.toList, "typescript", 1⟩

/-- The id of the class is issued three times, and there is just room for what is retired. -/
theorem classThenFunction_issued :
    (new "a.ts" 3).retirements (classThenFunction.map .ofDocument) =
        ["a.ts::A@1", "a.ts::m@a.ts::A@1@2", "a.ts::A@1#2"] ∧
      given ((new "a.ts" 3).issued (classThenFunction.map .ofDocument)) "a.ts::A@1" =
        ["a.ts::A@1", "a.ts::A@1#2", "a.ts::A@1#3"] ∧
      (∀ id, ∃ n, given ((new "a.ts" 3).issued (classThenFunction.map .ofDocument)) id =
        (List.range n).map (nthVariant id)) ∧
      (∀ log l, (new "a.ts" 3).Stage (classThenFunction.map .ofDocument) log l →
        ∀ id n, (id, withSuffix id n) ∈ log → id ∈ l.suffixes.keys) ∧
      ((new "a.ts" 3).run (classThenFunction.map .ofDocument)).lineage.suffixes.keys =
        ["a.ts::A@1"] := by
  have hretirements : (new "a.ts" 3).retirements (classThenFunction.map .ofDocument) =
      ["a.ts::A@1", "a.ts::m@a.ts::A@1@2", "a.ts::A@1#2"] := by decide +kernel
  obtain ⟨hconsecutive, hcounters, -⟩ := issued_consecutively "a.ts" 3 classThenFunction
    (by rw [hretirements]; decide +kernel)
  exact ⟨hretirements, by decide +kernel, hconsecutive, hcounters, by decide +kernel⟩

end Thread
end Lineage
end SymbolAtlas
