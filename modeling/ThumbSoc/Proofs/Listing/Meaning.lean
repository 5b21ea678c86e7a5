import ThumbSoc.Proofs.Listing.Statement
import ThumbSoc.Semantics

/-!
# Statements determine behaviour

Two instructions of one length that are written alike do the same. What the statement leaves open
does not matter: execution does not look at the encoding, and a special register without a name of
its own reads as zero and ignores writes, whatever its number.
-/

namespace ThumbSoc

/-! ### Special registers without a name -/

namespace Special

/-- Whether a special register shows nothing and keeps nothing. -/
def isMute : Special → Bool
  | status false false | unknown => true
  | _ => false

/-- Beyond the last named selector all are like the one behind it. -/
theorem selector_beyond (n : Nat) :
  selectorName n = selectorName (min n 21) ∧ ofSelector n = ofSelector (min n 21)
  := by
  rcases Nat.le_total n 21 with h | h
  · rw [Nat.min_eq_left h]
    exact ⟨rfl, rfl⟩
  · obtain ⟨k, rfl⟩ := Nat.exists_eq_add_of_le' h
    rw [Nat.min_eq_right h]
    refine ⟨rfl, ?_⟩
    unfold ofSelector
    rw [if_neg (by omega)]
    rfl

theorem ofSelector_named :
  ∀ n ≤ 21, ∀ m ≤ 21, selectorName n = selectorName m →
    ofSelector n = ofSelector m ∨ (ofSelector n).isMute = true ∧ (ofSelector m).isMute = true
  := by decide

/-- A name stands for one special register, or for some that are mute. -/
theorem ofSelector_congr {n m : Nat} (h : selectorName n = selectorName m) :
  ofSelector n = ofSelector m ∨ (ofSelector n).isMute = true ∧ (ofSelector m).isMute = true
  := by
  obtain ⟨hname, hspecial⟩ := selector_beyond n
  obtain ⟨hname', hspecial'⟩ := selector_beyond m
  rw [hname, hname'] at h
  rw [hspecial, hspecial']
  exact ofSelector_named _ (Nat.min_le_right n 21) _ (Nat.min_le_right m 21) h

end Special

namespace ThumbCore

open Special

variable (core : ThumbCore) {n m : Nat}

theorem readSpecial_mute (h : (ofSelector n).isMute = true) :
  core.readSpecial n = 0
  := by
  rw [readSpecial]
  unfold isMute at h
  split at h
  · next hspecial => simp [hspecial]
  · next hspecial => rw [hspecial]
  · cases h

theorem writeSpecial_mute (h : (ofSelector n).isMute = true) (value : Word) :
  core.writeSpecial n value = core
  := by
  rw [writeSpecial]
  unfold isMute at h
  split at h
  · next hspecial => rw [hspecial]
  · next hspecial => rw [hspecial]
  · cases h

theorem readSpecial_congr (h : selectorName n = selectorName m) :
  core.readSpecial n = core.readSpecial m
  := by
  rcases ofSelector_congr h with hsame | ⟨hmute, hmute'⟩
  · rw [readSpecial, hsame]
    rfl
  · rw [core.readSpecial_mute hmute, core.readSpecial_mute hmute']

theorem writeSpecial_congr (h : selectorName n = selectorName m) (value : Word) :
  core.writeSpecial n value = core.writeSpecial m value
  := by
  rcases ofSelector_congr h with hsame | ⟨hmute, hmute'⟩
  · rw [writeSpecial, hsame]
    rfl
  · rw [core.writeSpecial_mute hmute, core.writeSpecial_mute hmute']

end ThumbCore

/-! ### Behaviour -/

namespace Instruction

variable {i i' : Instruction} {core : ThumbCore} {pc : Word}

/-- Executes the instruction at `pc` and applies its effects: the new core, and whether it asks
to sleep. -/
def conduct (i : Instruction) (core : ThumbCore) (pc : Word) :
    EStateM CoreFault Bus (ThumbCore × Bool) := do
  let effects ← i.execute core pc
  return (effects.commit core, effects.sleeps)

/-- An instruction does not depend on its encoding. -/
theorem execute_raw (h : i.opcode ≠ .udf) (raw : Word) :
  { i with raw }.execute core pc = i.execute core pc
  := by
  simp only [execute]
  cases hcase : i.opcode with
  | udf => exact absurd hcase h
  | _ => rfl

/-- Only the moves to and from special registers name one. -/
theorem execute_selector (h : i.opcode ≠ .mrs) (h' : i.opcode ≠ .msr) (selector : Nat) :
  { i with selector }.execute core pc = i.execute core pc
  := by
  simp only [execute]
  cases hcase : i.opcode with
  | mrs => exact absurd hcase h
  | msr => exact absurd hcase h'
  | _ => rfl

theorem conduct_selector {selector : Nat}
    (h : Special.selectorName i.selector = Special.selectorName selector) :
  { i with selector }.conduct core pc = i.conduct core pc
  := by
  rw [conduct, conduct]
  by_cases hread : i.opcode = .mrs
  · have hvalue := core.readSpecial_congr h
    simp only [execute, hread, hvalue]
    rfl
  · by_cases hwrite : i.opcode = .msr
    · simp only [execute, hwrite, pure_bind]
      have hvalue := fun core => ThumbCore.writeSpecial_congr core h
      simp only [Effects.commit, hvalue]
      rfl
    · rw [execute_selector hread hwrite]

theorem Alike.conduct_eq (h : i.Alike i') (hopcode : i.opcode ≠ .udf) (core : ThumbCore)
    (pc : Word) :
  i'.conduct core pc = i.conduct core pc
  := by
  rw [h.fields]
  have hraw : { i with raw := i'.raw }.conduct core pc = i.conduct core pc := by
    rw [conduct, conduct, execute_raw hopcode]
  rw [← hraw]
  exact conduct_selector (i := { i with raw := i'.raw }) h.selector

/-- **Statements determine behaviour.** Two words of one length whose instructions are written
alike at an address have the same condition, and at that address they do the same to every core on
every bus: they raise the same fault, or they leave the same core, the same wish to sleep and the
same bus. -/
theorem conduct_of_text {pc word word' : Word} {length : Nat} {i i' : Instruction}
    (h : decode word length = .ok i) (h' : decode word' length = .ok i')
    (htext : i.text pc = i'.text pc) (core : ThumbCore) (bus : Bus) :
  i.condition.holds core.flags = i'.condition.holds core.flags
    ∧ i.conduct core pc bus = i'.conduct core pc bus
  := by
  have hencoded := decode_encoded h
  have halike := hencoded.alike (decode_encoded h') htext
  have hcondition : i'.condition = i.condition := by rw [halike.fields]
  rw [hcondition, halike.conduct_eq hencoded.opcode_ne]
  exact ⟨rfl, rfl⟩

/-- Low registers can be compared in two encodings. -/
theorem compare_conduct_of_text :
  ∃ i i', decode 0x4288 2 = .ok i ∧ decode 0x4508 2 = .ok i' ∧ i.text 0x20000000 = "cmp r0, r1"
    ∧ i'.text 0x20000000 = "cmp r0, r1"
    ∧ ∀ (core : ThumbCore) (bus : Bus),
      i.condition.holds core.flags = i'.condition.holds core.flags
        ∧ i.conduct core 0x20000000 bus = i'.conduct core 0x20000000 bus
  := by
  have hlow : ∃ i, decode 0x4288 2 = .ok i ∧ i.text 0x20000000 = "cmp r0, r1" :=
    ⟨_, rfl, by decide⟩
  have hany : ∃ i, decode 0x4508 2 = .ok i ∧ i.text 0x20000000 = "cmp r0, r1" :=
    ⟨_, rfl, by decide⟩
  obtain ⟨i, hdecode, htext⟩ := hlow
  obtain ⟨i', hdecode', htext'⟩ := hany
  exact ⟨i, i', hdecode, hdecode', htext, htext', fun core bus =>
    conduct_of_text hdecode hdecode' (htext.trans htext'.symm) core bus⟩

end Instruction

end ThumbSoc
