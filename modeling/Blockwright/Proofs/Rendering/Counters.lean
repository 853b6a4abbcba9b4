import Blockwright.Proofs.Rendering.Rendered
import Blockwright.Proofs.Theme.History

/-!
# Counters of runs

Theming a texture and counting it in the tally add to the counters of a run. All counters are words
of 32 bits, and nothing is rendered that one of them has no room for.
-/

namespace Blockwright

/-! ## Tallies -/

namespace Tally

variable {tally after : Tally} {origin : Origin} {attempts warnings : Nat}

/-- Number of textures from an origin. -/
def ofOrigin (tally : Tally) : Origin → UInt32
  | .copied => tally.copied
  | .templated => tally.templated
  | .synthesized => tally.synthesized

theorem addOrigin?_eq_some (added : tally.addOrigin? origin = some after) :
    (∀ other, (after.ofOrigin other).toNat =
      (tally.ofOrigin other).toNat + if other = origin then 1 else 0) ∧
    after.textures = tally.textures ∧ after.retried = tally.retried ∧
    after.warnings = tally.warnings := by
  cases origin <;> obtain ⟨count, counted, same⟩ := Option.bind_eq_some_iff.1 added <;> cases same
  all_goals
    refine ⟨fun other => ?_, rfl, rfl, rfl⟩
    cases other <;> first | rfl | exact count?_eq_some.1 counted

theorem exists_addOrigin? (room : (tally.ofOrigin origin).toNat + 1 < UInt32.size) :
    ∃ after, tally.addOrigin? origin = some after := by
  cases origin <;>
    exact ⟨_, Option.bind_eq_some_iff.2 ⟨_, count?_eq_some.2 (UInt32.toNat_ofNat_of_lt' room), rfl⟩⟩

end Tally

/-! ## Counters -/

/-- A counter that grows with the textures of a run. -/
inductive Counter where
  | collisions
  | exhausted
  | textures
  | origin (origin : Origin)
  | retried
  | warnings

/-- What theming a texture adds to the counters. -/
def Themed.cost (themed : Themed) : Counter → Nat
  | .collisions => themed.collisions
  | .exhausted => themed.duplicates
  | _ => 0

/-- What a texture adds to the counters of a tally. -/
def Tally.cost (origin : Origin) (attempts warnings : Nat) : Counter → Nat
  | .textures => 1
  | .origin other => if other = origin then 1 else 0
  | .retried => if 0 < attempts then 1 else 0
  | .warnings => (UInt32.ofNat warnings).toNat
  | _ => 0

namespace Run

variable {μ : Type} {run middle after : Run μ} {first second cost : Counter → Nat}

/-- The count of a counter. -/
def count (run : Run μ) : Counter → UInt32
  | .collisions => run.gallery.collisions
  | .exhausted => run.gallery.exhausted
  | .textures => run.tally.textures
  | .origin origin => run.tally.ofOrigin origin
  | .retried => run.tally.retried
  | .warnings => run.tally.warnings

/-- Whether every counter has room for what is added to it. -/
def HasRoom (run : Run μ) (cost : Counter → Nat) : Prop :=
  ∀ counter, (run.count counter).toNat + cost counter < UInt32.size

/-- Whether so much has been added to every counter. -/
def Spends (run : Run μ) (cost : Counter → Nat) (after : Run μ) : Prop :=
  ∀ counter, (after.count counter).toNat = (run.count counter).toNat + cost counter

theorem Spends.refl (run : Run μ) : run.Spends 0 run := fun _ => rfl

theorem Spends.trans (before : run.Spends first middle) (behind : middle.Spends second after) :
    run.Spends (first + second) after := by
  intro counter
  rw [behind counter, before counter, Nat.add_assoc]
  rfl

theorem Spends.unique (spends : run.Spends first after) (again : run.Spends second after) :
    first = second :=
  funext fun counter => Nat.add_left_cancel ((spends counter).symm.trans (again counter))

/-- There is room for more behind what has been added exactly if there was room for both. -/
theorem Spends.hasRoom_iff (spends : run.Spends first middle) :
    run.HasRoom (first + second) ↔ middle.HasRoom second := by
  refine forall_congr' fun counter => ?_
  rw [spends counter, Nat.add_assoc]
  rfl

theorem HasRoom.left (room : run.HasRoom (first + second)) : run.HasRoom first :=
  fun counter => (Nat.add_le_add_left (Nat.le_add_right _ _) _).trans_lt (room counter)

/-- All counters are zero in the beginning. -/
theorem hasRoom_start [BlockMemory μ] {most : Nat} (fits : most < UInt32.size) :
    (start : Run μ).HasRoom fun _ => most := by
  intro counter
  have zero : (start : Run μ).count counter = 0 := by
    cases counter with
    | origin origin => cases origin <;> rfl
    | _ => rfl
  rw [zero]
  exact (Nat.zero_add most).trans_lt fits

theorem spends_consult [BlockMemory μ] (run : Run μ) (source : AssetSource)
    (texture : TextureSource) : run.Spends 0 (run.consult source texture).2 := by
  obtain ⟨found, memory, same⟩ := run.consult_eq source texture
  rw [same]
  exact fun counter => by cases counter <;> rfl

theorem spends_themed {settings : ThemeSettings} {source : Image} {hue : Float32} {owner : String}
    {themed : Themed} {gallery : Gallery}
    (made : Theme.themed? settings source hue owner run.gallery = some (themed, gallery)) :
    run.Spends themed.cost { run with gallery } := by
  obtain ⟨collided, counted⟩ := Theme.counted_themed made
  intro counter
  cases counter with
  | collisions => exact collided
  | exhausted => exact counted
  | _ => rfl

theorem spends_add? {origin : Origin} {attempts warnings : Nat} {tally : Tally}
    (added : run.tally.add? origin attempts warnings = some tally) :
    run.Spends (Tally.cost origin attempts warnings) { run with tally } := by
  obtain ⟨textures, isTextures, added⟩ := Option.bind_eq_some_iff.1 added
  obtain ⟨warned, isWarned, added⟩ := Option.bind_eq_some_iff.1 added
  obtain ⟨retried, isRetried, added⟩ := Option.bind_eq_some_iff.1 added
  obtain ⟨origins, sameTextures, sameRetried, sameWarnings⟩ := Tally.addOrigin?_eq_some added
  intro counter
  cases counter with
  | textures =>
    rw [count, sameTextures]
    exact count?_eq_some.1 isTextures
  | origin other => exact origins other
  | retried =>
    rw [count, sameRetried]
    refine (count?_eq_some.1 isRetried).trans ?_
    rw [count, Tally.cost]
    split <;> rfl
  | warnings =>
    rw [count, sameWarnings]
    exact count?_eq_some.1 isWarned
  | _ => rfl

theorem exists_add? {origin : Origin} {attempts warnings : Nat}
    (room : run.HasRoom (Tally.cost origin attempts warnings)) :
    ∃ tally, run.tally.add? origin attempts warnings = some tally := by
  have counts {counter more : UInt32} (fits : counter.toNat + more.toNat < UInt32.size) :
      ∃ counted, count? counter more = some counted :=
    ⟨_, count?_eq_some.2 (UInt32.toNat_ofNat_of_lt' fits)⟩
  obtain ⟨textures, isTextures⟩ : ∃ textures, count? run.tally.textures 1 = some textures :=
    counts (room .textures)
  obtain ⟨warned, isWarned⟩ :
      ∃ warned, count? run.tally.warnings (UInt32.ofNat warnings) = some warned :=
    counts (room .warnings)
  obtain ⟨retried, isRetried⟩ : ∃ retried, count? run.tally.retried
      (if 0 < attempts then 1 else 0) = some retried := by
    refine counts (lt_of_eq_of_lt (congrArg _ ?_) (room .retried))
    rw [Tally.cost]
    split <;> rfl
  have another : (run.tally.ofOrigin origin).toNat + 1 < UInt32.size := by
    have fits := room (.origin origin)
    rwa [count, Tally.cost, if_pos rfl] at fits
  simp only [Tally.add?, isTextures, isWarned, isRetried, Option.bind_eq_bind, Option.bind_some]
  exact Tally.exists_addOrigin? another

end Run

end Blockwright
