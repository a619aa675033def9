import AuditTrail.Proofs.Json.Normal
/-! # Values as data

Two values are the same data when they are equal except for how their objects are written: an object
is the finite map that takes each key to the last value behind it. Normal forms are equal exactly for
values that are the same data. -/

namespace AuditTrail.Json
set_option autoImplicit false

/-- The values are the same data. -/
inductive Same : Json → Json → Prop where
  | null : Same .null .null
  | bool (b : Bool) : Same (.bool b) (.bool b)
  | number (n : Number) : Same (.number n) (.number n)
  | string (s : String) : Same (.string s) (.string s)
  /-- Equally many items, the same at each place. -/
  | array {as bs : List Json} (length_eq : as.length = bs.length)
    (items : ∀ (i : Nat) (a b : Json), as[i]? = some a → bs[i]? = some b → Same a b) :
    Same (.array as) (.array bs)
  /-- The same keys, and the same value behind each of them. -/
  | object {ms ns : List (String × Json)}
    (keys : ∀ key, ((object ms).member? key).isSome = ((object ns).member? key).isSome)
    (values : ∀ (key : String) (a b : Json), (object ms).member? key = some a →
      (object ns).member? key = some b → Same a b) : Same (.object ms) (.object ns)
  | flawed (flaw : Flaw) : Same (.flawed flaw) (.flawed flaw)

theorem lookup_normalizeMembers_eq (members : List (String × Json)) (key : String) :
    (normalizeMembers members).lookup key = ((object members).member? key).map normalize :=
  lookup_normalizeMembers members key

theorem mem_of_member? {members : List (String × Json)} {key : String} {j : Json}
    (h : (object members).member? key = some j) : (key, j) ∈ members :=
  List.mem_reverse.mp (mem_of_lookup h)

/-- Members with the same normal form have the same keys. -/
theorem isSome_member?_of_normalizeMembers_eq {ms ns : List (String × Json)}
    (h : normalizeMembers ms = normalizeMembers ns) (key : String) :
    ((object ms).member? key).isSome = ((object ns).member? key).isSome := by
  have hlookup := congrArg (List.lookup key) h
  rw [lookup_normalizeMembers_eq, lookup_normalizeMembers_eq] at hlookup
  have hsome := congrArg Option.isSome hlookup
  rwa [Option.isSome_map, Option.isSome_map] at hsome

theorem same_of_normalize_eq (a : Json) : ∀ b, a.normalize = b.normalize → Same a b := by
  induction a using tree_induction with
  | null =>
    intro b h
    cases b with
    | null => exact .null
    | _ => cases h
  | bool p =>
    intro b h
    cases b with
    | bool q =>
      cases h
      exact .bool p
    | _ => cases h
  | number n =>
    intro b h
    cases b with
    | number m =>
      cases h
      exact .number n
    | _ => cases h
  | string s =>
    intro b h
    cases b with
    | string t =>
      cases h
      exact .string s
    | _ => cases h
  | array as ih =>
    intro b h
    cases b with
    | array bs =>
      rw [normalize, normalize, normalizeItems_eq_map, normalizeItems_eq_map] at h
      have hmap := Json.array.inj h
      refine .array ?_ ?_
      · have hlen := congrArg List.length hmap
        rwa [List.length_map, List.length_map] at hlen
      · intro i a b ha hb
        have hi := congrArg (fun items => items[i]?) hmap
        simp only [List.getElem?_map, ha, hb, Option.map_some] at hi
        exact ih a (List.mem_of_getElem? ha) b (Option.some.inj hi)
    | _ => cases h
  | object ms ih =>
    intro b h
    cases b with
    | object ns =>
      rw [normalize, normalize] at h
      have hmembers := Json.object.inj h
      refine .object (isSome_member?_of_normalizeMembers_eq hmembers) ?_
      intro key a b ha hb
      have hlookup := congrArg (List.lookup key) hmembers
      rw [lookup_normalizeMembers_eq, lookup_normalizeMembers_eq, ha, hb] at hlookup
      exact ih (key, a) (mem_of_member? ha) b (Option.some.inj hlookup)
    | _ => cases h
  | flawed flaw =>
    intro b h
    cases b with
    | flawed flaw' =>
      cases h
      exact .flawed flaw
    | _ => cases h

theorem Same.refl (a : Json) : Same a a := same_of_normalize_eq a a rfl

end AuditTrail.Json
