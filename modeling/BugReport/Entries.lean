/-!
# Entries by key

Small collections of entries under distinct keys, in the order in which the keys first came.
-/

namespace BugReport

/-- Replaces the entry of a key, or adds one at the end. -/
def putEntry {α : Type} (entries : List (String × α)) (key : String) (value : α) :
    List (String × α) :=
  if entries.any (·.1 == key) then entries.map fun e => if e.1 == key then (key, value) else e
  else entries ++ [(key, value)]

variable {α : Type} {entries : List (String × α)} {key other : String}

theorem lookup_replaced_of_ne (h : other ≠ key) (value : α) :
    (entries.map fun e => if e.1 == key then (key, value) else e).lookup other = entries.lookup other := by
  induction entries with
  | nil => rfl
  | cons entry entries ih =>
      obtain ⟨first, kept⟩ := entry
      by_cases hfirst : first = key
      · have hne : (other == first) = false := beq_eq_false_iff_ne.mpr (hfirst ▸ h)
        rw [List.map_cons, if_pos (beq_iff_eq.mpr hfirst), List.lookup_cons, List.lookup_cons, hne,
          ← hfirst, hne, hfirst, ih]
      · rw [List.map_cons, if_neg (mt beq_iff_eq.mp hfirst), List.lookup_cons, List.lookup_cons, ih]

theorem lookup_replaced (h : entries.any (·.1 == key) = true) (value : α) :
    (entries.map fun e => if e.1 == key then (key, value) else e).lookup key = some value := by
  induction entries with
  | nil => cases h
  | cons entry entries ih =>
      obtain ⟨first, kept⟩ := entry
      by_cases hfirst : first = key
      · rw [List.map_cons, if_pos (beq_iff_eq.mpr hfirst), List.lookup_cons_self]
      · have hrest : entries.any (·.1 == key) = true := by simpa [hfirst] using h
        have hne : (key == first) = false := beq_eq_false_iff_ne.mpr (Ne.symm hfirst)
        rw [List.map_cons, if_neg (mt beq_iff_eq.mp hfirst), List.lookup_cons, hne, ih hrest]

theorem lookup_putEntry (entries : List (String × α)) (key other : String) (value : α) :
    (putEntry entries key value).lookup other =
      if other = key then some value else entries.lookup other := by
  unfold putEntry
  split
  · next hkey =>
    split
    · next heq => rw [heq, lookup_replaced hkey]
    · next hne => exact lookup_replaced_of_ne hne value
  · next hkey =>
    rw [List.lookup_append]
    split
    · next heq =>
      -- No entry has the key, so the one at the end is found.
      have hnone : entries.lookup other = none := by
        rw [List.lookup_eq_none_iff]
        intro entry hentry
        have hne : entry.1 ≠ key := fun hsame =>
          hkey (List.any_eq_true.mpr ⟨entry, hentry, beq_iff_eq.mpr hsame⟩)
        exact bne_iff_ne.mpr fun hsame => hne (hsame.symm.trans heq)
      rw [hnone, heq, List.lookup_cons_self, Option.none_or]
    · next hne =>
      have hother : (other == key) = false := beq_eq_false_iff_ne.mpr hne
      rw [List.lookup_cons, hother, List.lookup_nil, Option.or_none]

end BugReport
