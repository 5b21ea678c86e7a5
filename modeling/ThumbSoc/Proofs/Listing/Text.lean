import Mathlib.Data.List.Basic
import Mathlib.Tactic.Use
import Std.Data.String.ToInt
import ThumbSoc.Listing

/-!
# Texts read back

What is written in a listing can be read back: a list with commas between its texts determines
them, a number is determined by its digits, and an operand by its text. An operand of a memory
transfer and a register list contain commas themselves, but each stands at the end of its line.
-/

namespace ThumbSoc

/-! ### Joined texts -/

/-- A text that can be told apart from its neighbours in a list with commas. -/
def Unbroken (text : String) : Prop :=
  text ≠ "" ∧ ',' ∉ text.toList

instance (text : String) : Decidable (Unbroken text) :=
  inferInstanceAs (Decidable (text ≠ "" ∧ ',' ∉ text.toList))

theorem toList_join_cons (first second : String) (rest : List String) :
  (", ".intercalate (first :: second :: rest)).toList
    = first.toList ++ ',' :: ' ' :: (", ".intercalate (second :: rest)).toList
  := by
  rw [String.intercalate_cons_cons, String.toList_append, String.toList_append, List.append_assoc]
  rfl

/-- Where a mark comes first, a text is cut in one way. -/
theorem cut {mark : Char} {first first' rest rest' : List Char} (h : mark ∉ first)
    (h' : mark ∉ first') (heq : first ++ mark :: rest = first' ++ mark :: rest') :
  first = first' ∧ rest = rest'
  := by
  induction first generalizing first' with
  | nil =>
    cases first' with
    | nil => exact ⟨rfl, List.cons_injective heq⟩
    | cons c' first' =>
      obtain ⟨rfl, _⟩ := List.cons.inj heq
      exact absurd List.mem_cons_self h'
  | cons c first ih =>
    cases first' with
    | nil =>
      obtain ⟨rfl, _⟩ := List.cons.inj heq
      exact absurd List.mem_cons_self h
    | cons c' first' =>
      obtain ⟨rfl, htail⟩ := List.cons.inj heq
      obtain ⟨rfl, hrest⟩ := ih (fun hmem => h (List.mem_cons_of_mem _ hmem))
        (fun hmem => h' (List.mem_cons_of_mem _ hmem)) htail
      exact ⟨rfl, hrest⟩

theorem join_ne {first : String} {rest : List String} (h : first ≠ "") :
  ", ".intercalate (first :: rest) ≠ ""
  := by
  intro hempty
  apply h
  apply String.toList_injective
  have hnil := congrArg String.toList hempty
  cases rest with
  | nil => rwa [String.intercalate_singleton] at hnil
  | cons second rest =>
    rw [toList_join_cons] at hnil
    simp at hnil

/-- A list with commas determines its texts. -/
theorem join_inj {texts texts' : List String} (h : ∀ t ∈ texts, Unbroken t)
    (h' : ∀ t ∈ texts', Unbroken t) (heq : ", ".intercalate texts = ", ".intercalate texts') :
  texts = texts'
  := by
  induction texts generalizing texts' with
  | nil =>
    cases texts' with
    | nil => rfl
    | cons first' rest' => exact absurd heq.symm (join_ne (h' first' List.mem_cons_self).1)
  | cons first rest ih =>
    have hfirst := h first List.mem_cons_self
    cases texts' with
    | nil => exact absurd heq (join_ne hfirst.1)
    | cons first' rest' =>
      have hfirst' := h' first' List.mem_cons_self
      have hlists := congrArg String.toList heq
      cases rest with
      | nil =>
        cases rest' with
        | nil =>
          rw [String.intercalate_singleton, String.intercalate_singleton] at heq
          rw [heq]
        | cons second' rest' =>
          rw [toList_join_cons, String.intercalate_singleton] at hlists
          apply absurd _ hfirst.2
          rw [hlists]
          simp
      | cons second rest =>
        cases rest' with
        | nil =>
          rw [toList_join_cons, String.intercalate_singleton] at hlists
          apply absurd _ hfirst'.2
          rw [← hlists]
          simp
        | cons second' rest' =>
          rw [toList_join_cons, toList_join_cons] at hlists
          obtain ⟨htexts, hrest⟩ := cut hfirst.2 hfirst'.2 hlists
          rw [String.toList_injective htexts]
          rw [ih (fun t ht => h t (List.mem_cons_of_mem _ ht))
            (fun t ht => h' t (List.mem_cons_of_mem _ ht))
            (String.toList_injective (List.cons_injective hrest))]

/-- Of two texts only the first has to be unbroken. -/
theorem pair_inj {first first' second second' : String} (h : Unbroken first)
    (h' : Unbroken first')
    (heq : ", ".intercalate [first, second] = ", ".intercalate [first', second']) :
  first = first' ∧ second = second'
  := by
  have hlists := congrArg String.toList heq
  rw [toList_join_cons, toList_join_cons, String.intercalate_singleton,
    String.intercalate_singleton] at hlists
  obtain ⟨hfirst, hsecond⟩ := cut h.2 h'.2 hlists
  exact ⟨String.toList_injective hfirst, String.toList_injective (List.cons_injective hsecond)⟩

/-! ### Numbers -/

theorem digit_of_mem_repr (n : Nat) {c : Char} (h : c ∈ (Nat.repr n).toList) :
  c.isDigit = true
  := by
  rw [Nat.toList_repr] at h
  exact Nat.isDigit_of_mem_toDigits (by decide) (by decide) h

/-- A number is written with digits and a sign. -/
theorem mem_toString {value : Int} {c : Char} (h : c ∈ (toString value).toList) :
  c = '-' ∨ c.isDigit = true
  := by
  cases value with
  | ofNat n =>
    right
    exact digit_of_mem_repr n h
  | negSucc n =>
    change c ∈ ("-" ++ Nat.repr (n + 1)).toList at h
    rw [String.toList_append] at h
    rcases List.mem_append.mp h with h | h
    · left
      exact List.mem_singleton.mp h
    · right
      exact digit_of_mem_repr _ h

theorem toString_inj {value value' : Int} (h : toString value = toString value') :
  value = value'
  := Int.repr_inj.mp h

theorem RegisterList.ext_contains {list list' : RegisterList}
    (h : ∀ n < 16, list.contains n = list'.contains n) :
  list = list'
  := by
  have hbits : list.bits = list'.bits := by
    apply UInt16.toNat_inj.mp
    apply Nat.eq_of_testBit_eq
    intro n
    rcases Nat.lt_or_ge n 16 with hn | hn
    · exact h n hn
    · have hhigh (list : RegisterList) : list.bits.toNat.testBit n = false := by
        apply Nat.testBit_lt_two_pow
        apply Nat.lt_of_lt_of_le list.bits.toNat_lt
        apply Nat.pow_le_pow_right (by decide) hn
      rw [hhigh list, hhigh list']
  cases list
  exact congrArg RegisterList.mk hbits

namespace Hex

/-- The number that hexadecimal digits spell. -/
def value (digits : List Char) : Nat :=
  digits.foldl (fun n c => 16 * n + "0123456789abcdef".toList.idxOf c) 0

theorem idxOf_digitChar :
  ∀ d < 16, "0123456789abcdef".toList.idxOf d.digitChar = d
  := by decide

theorem value_toDigits (n : Nat) :
  value (Nat.toDigits 16 n) = n
  := by
  induction n using Nat.strongRecOn with
  | ind n ih =>
    rw [Nat.toDigits_eq_if (by decide)]
    split
    · next hlt =>
      rw [value, List.foldl_cons, List.foldl_nil, idxOf_digitChar n hlt]
      omega
    · next hge =>
      have hfirst := ih (n / 16) (by omega)
      rw [value] at hfirst ⊢
      rw [List.foldl_append, hfirst, List.foldl_cons, List.foldl_nil,
        idxOf_digitChar _ (Nat.mod_lt n (by decide))]
      omega

/-- Zeros in front do not count. -/
theorem value_padded (count : Nat) (digits : List Char) :
  value (List.replicate count '0' ++ digits) = value digits
  := by
  induction count with
  | zero => rfl
  | succ count ih =>
    rw [List.replicate_succ]
    exact ih

theorem digits_inj {width n m : Nat} (h : digits width n = digits width m) :
  n = m
  := by
  have hdigits := congrArg value (String.ofList_injective h)
  rwa [value_padded, value_padded, value_toDigits, value_toDigits] at hdigits

theorem address_inj {a b : Word} (h : address a = address b) :
  a = b
  := by
  have htexts := congrArg String.toList h
  simp only [address, String.toList_append] at htexts
  have hdigits := String.toList_injective (List.append_cancel_left htexts)
  exact UInt32.toNat_inj.mp (digits_inj hdigits)

end Hex

/-! ### Registers -/

namespace Operand

theorem registerName_inj :
  ∀ n < 16, ∀ m < 16, registerName (some n) = registerName (some m) → n = m
  := by decide

theorem registerName_unbroken :
  ∀ n < 16, Unbroken (registerName (some n)) ∧ (registerName (some n)).toList.head? ≠ some '#'
  := by decide

theorem base_inj :
  ∀ n < 16, ∀ m < 16, ∀ up up',
    (base (some n) up).text = (base (some m) up').text → n = m ∧ up = up'
  := by decide

theorem base_unbroken :
  ∀ n < 16, ∀ up, Unbroken (base (some n) up).text
  := by decide

theorem selectorName_unbroken (n : Nat) :
  Unbroken (Special.selectorName n)
  := by
  unfold Special.selectorName
  split <;> decide

/-! ### Memory operands and lists -/

/-- What is written behind the base of a memory operand. -/
def offsetTexts (index : Option Nat) (displacement : Int) : List String :=
  match index with
  | some n => [registerName (some n)]
  | none => if displacement = 0 then [] else ["#" ++ toString displacement]

theorem memory_text (rn index : Option Nat) (displacement : Int) :
  (memory rn index displacement).text
    = "[" ++ ", ".intercalate (registerName rn :: offsetTexts index displacement) ++ "]"
  := by
  cases index with
  | some n =>
    rw [offsetTexts, String.intercalate_cons_cons, String.intercalate_singleton]
    simp only [text, Option.isSome_some, if_true, String.append_assoc]
  | none =>
    by_cases hzero : displacement = 0
    · rw [offsetTexts, if_pos hzero, String.intercalate_singleton]
      simp only [text, hzero, Option.isSome_none, Bool.false_eq_true, if_false, if_true,
        String.append_empty, String.append_assoc]
    · have hmark : ", #" = ", " ++ "#" := rfl
      rw [offsetTexts, if_neg hzero, String.intercalate_cons_cons, String.intercalate_singleton]
      simp only [text, hzero, Option.isSome_none, Bool.false_eq_true, if_false, hmark,
        String.append_assoc]

theorem immediate_unbroken (value : Int) :
  Unbroken (immediate value).text
  := by
  have hlist : (immediate value).text.toList = '#' :: (toString value).toList := by
    rw [text, String.toList_append]
    rfl
  constructor
  · intro hempty
    rw [hempty] at hlist
    cases hlist
  · rw [hlist]
    intro hmem
    rcases List.mem_cons.mp hmem with hmark | hmem
    · cases hmark
    · rcases mem_toString hmem with hminus | hdigit
      · cases hminus
      · cases hdigit

theorem immediate_inj {value value' : Int} (h : (immediate value).text = (immediate value').text) :
  value = value'
  := by
  have hlists := congrArg String.toList h
  simp only [text, String.toList_append] at hlists
  exact toString_inj (String.toList_injective (List.append_cancel_left hlists))

/-- A register is not written like a number. -/
theorem register_ne_immediate {n : Nat} (hn : n < 16) (value : Int) :
  (register (some n)).text ≠ (immediate value).text
  := by
  intro h
  apply (registerName_unbroken n hn).2
  have hlists := congrArg (List.head? ∘ String.toList) h
  simp only [Function.comp, text, String.toList_append] at hlists
  rw [hlists]
  rfl

theorem offsetTexts_unbroken {index : Option Nat} (hindex : ∀ n ∈ index, n < 16)
    (displacement : Int) :
  ∀ t ∈ offsetTexts index displacement, Unbroken t
  := by
  cases index with
  | some n => exact List.forall_mem_singleton.mpr (registerName_unbroken n (hindex n rfl)).1
  | none =>
    rw [offsetTexts]
    split
    · exact List.forall_mem_nil _
    · exact List.forall_mem_singleton.mpr (immediate_unbroken displacement)

theorem offsetTexts_inj {index index' : Option Nat} {displacement displacement' : Int}
    (hindex : ∀ n ∈ index, n < 16) (hindex' : ∀ n ∈ index', n < 16)
    (h : offsetTexts index displacement = offsetTexts index' displacement') :
  index = index' ∧ (index = none → displacement = displacement')
  := by
  cases index with
  | some n =>
    cases index' with
    | some n' =>
      rw [registerName_inj n (hindex n rfl) n' (hindex' n' rfl) (List.cons.inj h).1]
      apply And.intro rfl
      rintro ⟨⟩
    | none =>
      simp only [offsetTexts] at h
      split at h
      · cases h
      · exact absurd (List.cons.inj h).1 (register_ne_immediate (hindex n rfl) displacement')
  | none =>
    cases index' with
    | some n' =>
      simp only [offsetTexts] at h
      split at h
      · cases h
      · exact absurd (List.cons.inj h).1.symm (register_ne_immediate (hindex' n' rfl) displacement)
    | none =>
      use rfl
      intro _
      simp only [offsetTexts] at h
      split at h
      · next hzero =>
        split at h
        · next hzero' => rw [hzero, hzero']
        · cases h
      · split at h
        · cases h
        · exact immediate_inj (List.cons.inj h).1

theorem memory_inj {n n' : Nat} {index index' : Option Nat} {displacement displacement' : Int}
    (hn : n < 16) (hn' : n' < 16) (hindex : ∀ n ∈ index, n < 16) (hindex' : ∀ n ∈ index', n < 16)
    (h : (memory (some n) index displacement).text = (memory (some n') index' displacement').text) :
  n = n' ∧ index = index' ∧ (index = none → displacement = displacement')
  := by
  have hlists := congrArg String.toList h
  simp only [memory_text, String.toList_append, List.append_assoc] at hlists
  have hinside := List.append_cancel_right (List.append_cancel_left hlists)
  have htexts := join_inj
    (List.forall_mem_cons.mpr ⟨(registerName_unbroken n hn).1, offsetTexts_unbroken hindex _⟩)
    (List.forall_mem_cons.mpr ⟨(registerName_unbroken n' hn').1, offsetTexts_unbroken hindex' _⟩)
    (String.toList_injective hinside)
  obtain ⟨hbase, hoffset⟩ := List.cons.inj htexts
  exact ⟨registerName_inj n hn n' hn' hbase, offsetTexts_inj hindex hindex' hoffset⟩

/-- A list of registers is determined by the names in it. -/
theorem registers_inj {list list' : RegisterList}
    (h : (registers list).text = (registers list').text) :
  list = list'
  := by
  have hlists := congrArg String.toList h
  simp only [text, String.toList_append, List.append_assoc] at hlists
  have hinside := List.append_cancel_right (List.append_cancel_left hlists)
  have hunbroken (list : RegisterList) :
      ∀ t ∈ list.numbers.map fun n => registerName (some n), Unbroken t := by
    intro t ht
    obtain ⟨n, hn, rfl⟩ := List.mem_map.mp ht
    exact (registerName_unbroken n (RegisterList.mem_numbers.mp hn).1).1
  have hnames := join_inj (hunbroken list) (hunbroken list') (String.toList_injective hinside)
  have hmem (list : RegisterList) {n : Nat} (hn : n < 16) :
      registerName (some n) ∈ (list.numbers.map fun n => registerName (some n))
        ↔ list.contains n = true := by
    rw [List.mem_map]
    constructor
    · rintro ⟨m, hm, hname⟩
      obtain ⟨hlt, hcontains⟩ := RegisterList.mem_numbers.mp hm
      rwa [← registerName_inj m hlt n hn hname]
    · intro hcontains
      exact ⟨n, RegisterList.mem_numbers.mpr ⟨hn, hcontains⟩, rfl⟩
  apply RegisterList.ext_contains
  intro n hn
  rw [Bool.eq_iff_iff, ← hmem list hn, ← hmem list' hn, hnames]

end Operand

end ThumbSoc
