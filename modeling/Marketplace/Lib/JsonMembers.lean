import Marketplace.Lib.Json
import Mathlib.Data.List.Nodup
import Mathlib.Data.List.Perm.Subperm

/-!
# The members of JSON objects

`JSON.stringify` writes the members of an object in the order in which the object has them, so two
texts of one value can differ. What they can differ in is the skeleton: the value with its leaves
blanked.
-/

namespace Json

/-! ### Mapping the leaves -/

mutual

/-- The same arrays and objects with other leaves. -/
def mapLeaves (leaf : Json → Json) : Json → Json
  | array items => array (mapItems leaf items)
  | object members => object (mapMembers leaf members)
  | null => leaf null
  | bool value => leaf (bool value)
  | number literal => leaf (number literal)
  | string text => leaf (string text)

def mapItems (leaf : Json → Json) : List Json → List Json
  | [] => []
  | item :: rest => mapLeaves leaf item :: mapItems leaf rest

def mapMembers (leaf : Json → Json) : List (List Char × Json) → List (List Char × Json)
  | [] => []
  | (key, value) :: rest => (key, mapLeaves leaf value) :: mapMembers leaf rest

end

/-- The keys of every object in their order, and the length of every array. -/
def skeleton : Json → Json := mapLeaves fun _ => null

theorem mapMembers_eq_map (leaf : Json → Json) (members : List (List Char × Json)) :
    mapMembers leaf members = members.map (Prod.map id (mapLeaves leaf)) := by
  induction members with
  | nil => rfl
  | cons member rest ih => rw [mapMembers, ih, List.map_cons]; rfl

@[simp] theorem keys_mapMembers (leaf : Json → Json) (members : List (List Char × Json)) :
    (mapMembers leaf members).map Prod.fst = members.map Prod.fst := by
  simp [mapMembers_eq_map]

/-! ### Members in any order -/

/-- With every key once, the order of the keys is all that a permutation can change. -/
theorem eq_of_perm_of_keys {left right : List (List Char × Json)} (hperm : left.Perm right)
    (hnodup : (left.map Prod.fst).Nodup) (hkeys : left.map Prod.fst = right.map Prod.fst) :
    left = right := by
  apply List.ext_getElem hperm.length_eq
  intro index hleft hright
  have hmem : right[index] ∈ left := hperm.mem_iff.mpr (List.getElem_mem hright)
  have hkey : left[index].1 = right[index].1 := by
    have hget := congrArg (fun keys => keys[index]?) hkeys
    simpa [hleft, hright] using hget
  exact List.inj_on_of_nodup_map hnodup (List.getElem_mem hleft) hmem hkey

/-- Two objects that have the same members but for their leaves and their order: mapping the leaves
makes them equal if it does so member by member and the keys are in one order. -/
theorem mapLeaves_object_eq_iff (leaf : Json → Json)
    {members members' expected expected' : List (List Char × Json)}
    (hperm : members.Perm expected) (hperm' : members'.Perm expected')
    (hkeys : expected.map Prod.fst = expected'.map Prod.fst)
    (hnodup : (expected.map Prod.fst).Nodup) :
    mapLeaves leaf (object members) = mapLeaves leaf (object members') ↔
      members.map Prod.fst = members'.map Prod.fst ∧
        mapMembers leaf expected = mapMembers leaf expected' := by
  have hleft : (mapMembers leaf members).Perm (mapMembers leaf expected) := by
    simpa only [mapMembers_eq_map] using hperm.map _
  have hright : (mapMembers leaf members').Perm (mapMembers leaf expected') := by
    simpa only [mapMembers_eq_map] using hperm'.map _
  simp only [mapLeaves, object.injEq]
  constructor
  · intro heq
    have hexpected : (mapMembers leaf expected).Perm (mapMembers leaf expected') :=
      hleft.symm.trans (heq ▸ hright)
    constructor
    · simpa using congrArg (List.map Prod.fst) heq
    · apply eq_of_perm_of_keys hexpected
      · simpa using hnodup
      · simpa using hkeys
  · rintro ⟨horder, hvalues⟩
    have hmembers : (mapMembers leaf members).Perm (mapMembers leaf members') :=
      hleft.trans (hvalues ▸ hright.symm)
    apply eq_of_perm_of_keys hmembers
    · rw [keys_mapMembers]
      exact (hperm.map Prod.fst).nodup_iff.mpr hnodup
    · simpa using horder

/-- An object with these keys, each of them once, and no others. -/
def hasExactly (keys : List (List Char)) : Json → Bool
  | object members => (members.map Prod.fst).isPerm keys
  | _ => false

theorem mem_of_get {key : List Char} {members : List (List Char × Json)} {value : Json}
    (hget : (object members).get key = some value) : (key, value) ∈ members := by
  obtain ⟨member, hfind, rfl⟩ := Option.map_eq_some_iff.mp hget
  have hkey : member.1 = key := by simpa using List.find?_some hfind
  have hmem : member ∈ members := List.mem_reverse.mp (List.mem_of_find?_eq_some hfind)
  rwa [← hkey]

theorem get_of_mem {key : List Char} {members : List (List Char × Json)} {value : Json}
    (hnodup : (members.map Prod.fst).Nodup) (hmem : (key, value) ∈ members) :
    (object members).get key = some value := by
  cases hget : (object members).get key with
  | none =>
      have hnone :=
        List.find?_eq_none.mp (Option.map_eq_none_iff.mp hget) _ (List.mem_reverse.mpr hmem)
      simp at hnone
  | some found =>
      have heq := List.inj_on_of_nodup_map hnodup (mem_of_get hget) hmem rfl
      rw [(Prod.mk.inj heq).2]

theorem perm_of_hasExactly {json : Json} (expected : List (List Char × Json))
    (hexactly : json.hasExactly (expected.map Prod.fst) = true)
    (hnodup : (expected.map Prod.fst).Nodup)
    (hget : ∀ member ∈ expected, json.get member.1 = some member.2) :
    ∃ members, json = object members ∧ members.Perm expected := by
  cases json with
  | object members =>
      have hkeys : (members.map Prod.fst).Perm (expected.map Prod.fst) :=
        List.isPerm_iff.mp hexactly
      have hlength : members.length = expected.length := by simpa using hkeys.length_eq
      have hsubset : expected ⊆ members := fun member hmem => mem_of_get (hget member hmem)
      have hsubperm := List.subperm_of_subset (List.Nodup.of_map Prod.fst hnodup) hsubset
      exact ⟨members, rfl, (hsubperm.perm_of_length_le (Nat.le_of_eq hlength)).symm⟩
  | null | bool _ | number _ | string _ | array _ => cases hexactly

/-! ### Values that differ in the order of their members -/

mutual

/-- The first value is the second, but for the order of the members. -/
def Same : Json → Json → Prop
  | left, array items => ∃ items', left = array items' ∧ SameItems items' items
  | left, object members =>
      (∃ members', left = object members' ∧ (members'.map Prod.fst).Perm (members.map Prod.fst)) ∧
        SameMembers left members
  | left, null => left = null
  | left, bool value => left = bool value
  | left, number literal => left = number literal
  | left, string text => left = string text

def SameItems : List Json → List Json → Prop
  | left, [] => left = []
  | left, item :: rest =>
      ∃ item' rest', left = item' :: rest' ∧ Same item' item ∧ SameItems rest' rest

def SameMembers : Json → List (List Char × Json) → Prop
  | _, [] => True
  | left, (key, value) :: rest =>
      (∃ value', left.get key = some value' ∧ Same value' value) ∧ SameMembers left rest

end

mutual

/-- Every object has each of its keys once, and every number satisfies the condition. -/
def Plain (cond : JsonNumber → Prop) : Json → Prop
  | array items => PlainItems cond items
  | object members => (members.map Prod.fst).Nodup ∧ PlainMembers cond members
  | number literal => cond literal
  | null => True
  | bool _ => True
  | string _ => True

def PlainItems (cond : JsonNumber → Prop) : List Json → Prop
  | [] => True
  | item :: rest => Plain cond item ∧ PlainItems cond rest

def PlainMembers (cond : JsonNumber → Prop) : List (List Char × Json) → Prop
  | [] => True
  | (_, value) :: rest => Plain cond value ∧ PlainMembers cond rest

end

mutual

/-- The members of every object in another order. -/
def reorder (order : List (List Char × Json) → List (List Char × Json)) : Json → Json
  | array items => array (reorderItems order items)
  | object members => object (order (reorderMembers order members))
  | null => null
  | bool value => bool value
  | number literal => number literal
  | string text => string text

def reorderItems (order : List (List Char × Json) → List (List Char × Json)) : List Json → List Json
  | [] => []
  | item :: rest => reorder order item :: reorderItems order rest

def reorderMembers (order : List (List Char × Json) → List (List Char × Json)) :
    List (List Char × Json) → List (List Char × Json)
  | [] => []
  | (key, value) :: rest => (key, reorder order value) :: reorderMembers order rest

end

theorem sameMembers_iff {left : Json} {members : List (List Char × Json)} :
    SameMembers left members ↔ ∀ member ∈ members, ∃ value', left.get member.1 = some value' ∧
      Same value' member.2 := by
  induction members with
  | nil => simp [SameMembers]
  | cons member rest ih => simp [SameMembers, ih]

theorem reorderMembers_eq_map (order : List (List Char × Json) → List (List Char × Json))
    (members : List (List Char × Json)) :
    reorderMembers order members = members.map (Prod.map id (reorder order)) := by
  induction members with
  | nil => rfl
  | cons member rest ih => rw [reorderMembers, ih, List.map_cons]; rfl

@[simp] theorem keys_reorderMembers (order : List (List Char × Json) → List (List Char × Json))
    (members : List (List Char × Json)) :
    (reorderMembers order members).map Prod.fst = members.map Prod.fst := by
  simp [reorderMembers_eq_map]

section Reorder

variable {order : List (List Char × Json) → List (List Char × Json)} {cond : JsonNumber → Prop}

theorem same_reorder_object (horder : ∀ members, (order members).Perm members)
    {members : List (List Char × Json)} (hnodup : (members.map Prod.fst).Nodup)
    (hvalues : ∀ member ∈ members, Same (reorder order member.2) member.2) :
    Same (reorder order (object members)) (object members) := by
  have hkeys :
      ((order (reorderMembers order members)).map Prod.fst).Perm (members.map Prod.fst) := by
    have hperm := (horder (reorderMembers order members)).map Prod.fst
    rwa [keys_reorderMembers] at hperm
  rw [reorder, Same, sameMembers_iff]
  refine ⟨⟨_, rfl, hkeys⟩, ?_⟩
  intro member hmem
  refine ⟨reorder order member.2, ?_, hvalues member hmem⟩
  apply get_of_mem (hkeys.nodup_iff.mpr hnodup)
  rw [(horder _).mem_iff, reorderMembers_eq_map, List.mem_map]
  exact ⟨member, hmem, rfl⟩

mutual

theorem same_reorder (horder : ∀ members, (order members).Perm members) :
    ∀ json, Plain cond json → Same (reorder order json) json
  | array items, hplain => by
      rw [Plain] at hplain
      rw [reorder, Same]
      exact ⟨_, rfl, sameItems_reorder horder items hplain⟩
  | object members, hplain => by
      rw [Plain] at hplain
      exact same_reorder_object horder hplain.1 (same_reorder_members horder members hplain.2)
  | null, _ => by rw [reorder, Same]
  | bool value, _ => by rw [reorder, Same]
  | number literal, _ => by rw [reorder, Same]
  | string text, _ => by rw [reorder, Same]

theorem sameItems_reorder (horder : ∀ members, (order members).Perm members) :
    ∀ items, PlainItems cond items → SameItems (reorderItems order items) items
  | [], _ => by rw [reorderItems, SameItems]
  | item :: rest, hplain => by
      rw [PlainItems] at hplain
      rw [reorderItems, SameItems]
      exact ⟨_, _, rfl, same_reorder horder item hplain.1, sameItems_reorder horder rest hplain.2⟩

theorem same_reorder_members (horder : ∀ members, (order members).Perm members) :
    ∀ members, PlainMembers cond members →
      ∀ member ∈ members, Same (reorder order member.2) member.2
  | [], _ => by simp
  | (key, value) :: rest, hplain => by
      rw [PlainMembers] at hplain
      rw [List.forall_mem_cons]
      exact ⟨same_reorder horder value hplain.1, same_reorder_members horder rest hplain.2⟩

end

end Reorder

end Json
