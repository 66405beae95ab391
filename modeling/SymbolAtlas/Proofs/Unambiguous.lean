import SymbolAtlas.Proofs.CallIndex
import SymbolAtlas.Proofs.Change

/-!
# Ids tell files apart

The graph looks up callers and callees by id, and the history the events of a symbol, over all files
at once.  That is right as long as an id tells its file: `Moment.ids_apart` says so of any two
snapshots that are ever there, in one session or in two, whatever signs their file ids are made of.
Files with ids that are prefixes of one another, or read like an id themselves, are no exception
(`likenesses_apart`).
-/

namespace SymbolAtlas
namespace Session

/-- A state in which a session can be found: between two operations, or by a subscriber that is
called during one. -/
inductive Moment : Session → Prop
  | between {s : Session} (h : s.Reachable) : Moment s
  | during {s : Session} (h : s.Reachable) {op : Op} {c : Call} (hc : c ∈ s.calls op) :
      Moment c.session

theorem Moment.identifies {s : Session} (h : s.Moment) : s.Identifies := by
  cases h with
  | between h => exact h.identifies
  | @during s h op c hc =>
    cases op with
    | dispose part => simp [calls] at hc
    | _ => exact h.identifies.reaches ((follows_step s rfl).calls c hc)

/-- **An id tells its file.**  Snapshots of two files, at whatever moments, have no id in common;
and of snapshots of one file, the id of the file's own symbol in the one is no declaration's id in
the other. -/
theorem Moment.ids_apart {s t : Session} (hs : s.Moment) (ht : t.Moment) {f g : String}
    {c c' : Snapshot} (hc : s.snapshot? f = some c) (hc' : t.snapshot? g = some c') :
    (f ≠ g → ∀ x ∈ c.ids, x ∉ c'.ids) ∧
      (f = g → ∀ file ∈ c.symbols, file.kind = .file → ∀ d ∈ c'.declared, file.id ≠ d.id) := by
  have hidc := hs.identifies.snapshots f c hc
  have hidc' := ht.identifies.snapshots g c' hc'
  constructor
  · rintro hfg x hx hx'
    obtain ⟨a, ha, rfl⟩ := List.mem_map.mp hx
    obtain ⟨b, hb, hba⟩ := List.mem_map.mp hx'
    have hidb : IsIdOf g a.id := hba ▸ Snapshot.isIdOf_of_mem hidc' hb
    exact hfg ((Snapshot.isIdOf_of_mem hidc ha).unique hidb)
  · rintro - file hfile hkind d hd heq
    have hshape := Snapshot.shape_of_declared hidc' d hd
    rw [← heq, (hidc file hfile).1 hkind] at hshape
    unfold Lineage.HasShape at hshape
    split_ifs at hshape
    · exact (not_isIdOf_fileSymbolId f g).2 hshape
    · exact (not_isIdOf_fileSymbolId f g).1 hshape

/-- A file, and one with an id like that of a method in the first.  A function leaves the second,
comes back under another id and gets another name. -/
def likenesses : List Op :=
  [.openDocument "a" ("class f \x7b\n" ++ "  m() {}\n\x7d").toList "typescript" 1,
    .openDocument "a::m@a" "class f {}\nfunction g() {}".toList "typescript" 1,
    .update "a::m@a" "class f {}".toList,
    .update "a::m@a" "class f {}\nfunction g() {}".toList,
    .update "a::m@a" "class f {}\nfunction h() {}".toList]

/-- The method of the one class has the id of the other class and a line, and yet the ids are
all different. -/
theorem likenesses_apart :
    let s := (new .default false (.new false)).run likenesses
    (s.snapshot? "a").map Snapshot.ids =
        some ["a::<file>@1", "a::f@1", "a::m@a::f@1@2"] ∧
      (s.snapshot? "a::m@a").map Snapshot.ids =
        some ["a::m@a::<file>@1", "a::m@a::f@1", "a::m@a::g@2#2"] ∧
      ∃ c c', s.snapshot? "a" = some c ∧ s.snapshot? "a::m@a" = some c' ∧
        (∀ x ∈ c.ids, x ∉ c'.ids) ∧
        ∀ file ∈ c.symbols, file.kind = .file → ∀ d ∈ c.declared, file.id ≠ d.id := by
  have hmoment : ((new .default false (.new false)).run likenesses).Moment :=
    .between ((reachable_new _ _ _).run _)
  have hids : (((new .default false (.new false)).run likenesses).snapshot? "a").map Snapshot.ids =
      some ["a::<file>@1", "a::f@1", "a::m@a::f@1@2"] := by decide +kernel
  have hids' : (((new .default false (.new false)).run likenesses).snapshot? "a::m@a").map
      Snapshot.ids = some ["a::m@a::<file>@1", "a::m@a::f@1", "a::m@a::g@2#2"] := by
    decide +kernel
  obtain ⟨c, hc, -⟩ := Option.map_eq_some_iff.mp hids
  obtain ⟨c', hc', -⟩ := Option.map_eq_some_iff.mp hids'
  exact ⟨hids, hids', c, c', hc, hc', (hmoment.ids_apart hmoment hc hc').1 (by decide),
    (hmoment.ids_apart hmoment hc hc).2 rfl⟩

end Session
end SymbolAtlas
