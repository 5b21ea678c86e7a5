import Mathlib.Tactic.Use
import ThumbSoc.Proofs.Encoding.Formats

/-!
# Tables of patterns

The first pattern that matches decides on the format. Where no word matches two patterns the order
of the table is of no account, and so it is for the wide formats. A halfword has a narrow format
only if it does not begin a wide encoding, and a pair of halfwords has a wide one only if its first
half does.
-/

namespace ThumbSoc

namespace Pattern

variable {p q : Pattern} {w : Word}

/-- The bits of a word that a matching pattern fixes. -/
theorem and_of_matches (h : p.matches w = true) {bits : Word} (hbits : p.mask &&& bits = bits) :
  w &&& bits = p.value &&& bits
  := by
  have hvalue : w &&& p.mask = p.value := beq_iff_eq.mp h
  rw [← hvalue, UInt32.and_assoc, hbits]

/-- Two patterns that one word matches agree on the bits that both of them fix. -/
theorem values_of_matches (hp : p.matches w = true) (hq : q.matches w = true) :
  p.value &&& q.mask = q.value &&& p.mask
  := by
  have hfirst : w &&& p.mask = p.value := beq_iff_eq.mp hp
  have hsecond : w &&& q.mask = q.value := beq_iff_eq.mp hq
  rw [← hfirst, ← hsecond, UInt32.and_assoc, UInt32.and_assoc, UInt32.and_comm p.mask]

section

variable {α : Type} {table other : List (Pattern × α)}

/-- No word matches two entries of the table. -/
def Disjoint (table : List (Pattern × α)) : Prop :=
  ∀ (w : Word), ∀ entry ∈ table, ∀ entry' ∈ table,
    entry.1.matches w = true → entry'.1.matches w = true → entry = entry'

/-- Of a disjoint table without repetitions at most one entry matches. -/
theorem length_filter_le_one (hdisjoint : Disjoint table) (hnodup : table.Nodup) (w : Word) :
  (table.filter fun entry => entry.1.matches w).length ≤ 1
  := by
  have hmatching := hnodup.filter fun entry => entry.1.matches w
  have hmem : ∀ entry ∈ table.filter fun entry => entry.1.matches w,
      entry ∈ table ∧ entry.1.matches w = true := fun _ => List.mem_filter.mp
  generalize (table.filter fun entry => entry.1.matches w) = matching at *
  cases matching with
  | nil => exact Nat.zero_le 1
  | cons first rest =>
    cases rest with
    | nil => exact Nat.le_refl 1
    | cons second rest =>
      obtain ⟨hfirst, hfirstMatches⟩ := hmem first (.head _)
      obtain ⟨hsecond, hsecondMatches⟩ := hmem second (.tail _ (.head _))
      obtain rfl := hdisjoint w _ hfirst _ hsecond hfirstMatches hsecondMatches
      exact absurd (.head _) (List.nodup_cons.mp hmatching).1

theorem matches_of_lookup {format : α} (h : lookup table w = some format) :
  ∃ p, (p, format) ∈ table ∧ p.matches w = true
  := by
  obtain ⟨⟨p, _⟩, hfind, rfl⟩ := Option.map_eq_some_iff.mp h
  use p, List.mem_of_find?_eq_some hfind
  apply List.find?_some hfind

/-- In a disjoint table whatever entry matches decides. -/
theorem lookup_eq_some_iff (hdisjoint : Disjoint table) {format : α} :
  lookup table w = some format ↔ ∃ p, (p, format) ∈ table ∧ p.matches w = true
  := by
  constructor
  · exact matches_of_lookup
  · rintro ⟨p, hmem, hmatches⟩
    have hsome : (table.find? fun entry => entry.1.matches w).isSome := by
      apply List.find?_isSome.mpr
      use (p, format)
    obtain ⟨entry, hfind⟩ := Option.isSome_iff_exists.mp hsome
    have hfirst := List.find?_some hfind
    have hentry : entry = (p, format) :=
      hdisjoint w _ (List.mem_of_find?_eq_some hfind) _ hmem hfirst hmatches
    rw [lookup, hfind, hentry]
    rfl

/-- The order of a disjoint table does not matter. -/
theorem lookup_perm (hdisjoint : Disjoint table) (hperm : other.Perm table) (w : Word) :
  lookup other w = lookup table w
  := by
  have hother : Disjoint other := by
    intro w entry hentry entry' hentry'
    apply hdisjoint w _ (hperm.subset hentry) _ (hperm.subset hentry')
  ext format
  rw [lookup_eq_some_iff hother, lookup_eq_some_iff hdisjoint]
  simp only [hperm.mem_iff]

end

end Pattern

/-! ### The beginning of a wide encoding -/

/-- A halfword with a narrow format does not begin a wide encoding. -/
theorem NarrowFormat.startsWith_of_of? {w : Word} {format : NarrowFormat}
    (h : of? w = some format) :
  WideFormat.startsWith w = false
  := by
  obtain ⟨p, hmem, hmatches⟩ := Pattern.matches_of_lookup h
  have hnarrow : ∀ entry ∈ table,
      (entry.1.mask &&& 0xE000 = 0xE000 ∧ entry.1.value &&& 0xE000 ≠ 0xE000)
        ∨ (entry.1.mask &&& 0x1800 = 0x1800 ∧ entry.1.value &&& 0x1800 = 0) := by decide
  rw [WideFormat.startsWith, Bool.and_eq_false_iff]
  obtain ⟨hmask, hvalue⟩ | ⟨hmask, hvalue⟩ := hnarrow _ hmem
  · left
    rw [Pattern.and_of_matches hmatches hmask]
    apply beq_false_of_ne hvalue
  · right
    rw [Pattern.and_of_matches hmatches hmask, hvalue]
    rfl

namespace WideFormat

/-- No pair of halfwords has two formats. -/
theorem table_disjoint :
  Pattern.Disjoint table
  := by
  have hvalues : ∀ entry ∈ table, ∀ entry' ∈ table,
      entry.1.value &&& entry'.1.mask = entry'.1.value &&& entry.1.mask → entry = entry' := by
    decide
  intro w entry hentry entry' hentry' hmatches hmatches'
  apply hvalues _ hentry _ hentry' (Pattern.values_of_matches hmatches hmatches')

/-- Only the first half of a pair decides whether it begins a wide encoding. -/
theorem startsWith_first (w : Word) :
  startsWith (w &&& 0xFFFF) = startsWith w
  := by
  rw [startsWith, UInt32.and_assoc, UInt32.and_assoc]
  rfl

/-- A pair of halfwords with a format begins a wide encoding. -/
theorem startsWith_of_of? {w : Word} {format : WideFormat} (h : of? w = some format) :
  startsWith w = true
  := by
  obtain ⟨p, hmem, hmatches⟩ := Pattern.matches_of_lookup h
  have hwide : ∀ entry ∈ table, entry.1.mask &&& 0xE000 = 0xE000
      ∧ entry.1.mask &&& 0x1800 = 0x1800 ∧ startsWith entry.1.value = true := by decide
  obtain ⟨hhigh, hlow, hvalue⟩ := hwide _ hmem
  rw [startsWith, Pattern.and_of_matches hmatches hhigh, Pattern.and_of_matches hmatches hlow]
  exact hvalue

end WideFormat

end ThumbSoc
