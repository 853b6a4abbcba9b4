import Blockwright.Proofs.Rendering.Counters
import Blockwright.Proofs.Theme.Repetition

/-!
# Repeated rendering

A run keeps what it knows about blocks, and its gallery keeps all owners. Rendering a batch once
more in the same run therefore ends as it did the first time, whatever was rendered in between, and
costs as much again. It is halted exactly if a counter has no room for that.
-/

namespace Blockwright

namespace Run

/-- Whether a run still has all owners of another and knows the same about its blocks. -/
structure Extends (later earlier : Run Memo) : Prop where
  gallery : later.gallery.Extends earlier.gallery
  known : ∀ block found, earlier.memory.known.lookup block = some found →
    later.memory.known.lookup block = some found

variable {run later last : Run Memo} {source : AssetSource}

theorem Extends.refl (run : Run Memo) : run.Extends run := ⟨.refl _, fun _ _ => id⟩

theorem Extends.trans (second : last.Extends later) (first : later.Extends run) :
    last.Extends run :=
  ⟨second.gallery.trans first.gallery, fun block found isKnown =>
    second.known block found (first.known block found isKnown)⟩

end Run

namespace Renderer

/-- Whether a computation ends in a later run as it did in a first one and costs as much again. It
is halted if a counter has no room for that. -/
def Repeats {α : Type} (compute : Run Memo → Except RenderError α × Run Memo)
    (run later : Run Memo) : Prop :=
  ∃ cost, run.Spends cost (compute run).2 ∧
    (later.HasRoom cost → (compute later).1 = (compute run).1 ∧
      later.Spends cost (compute later).2) ∧
    (¬ later.HasRoom cost → (compute later).1 = .error .halted)

variable {renderer : Renderer} {run later : Run Memo} {path : String} {task : TextureTask}

theorem Repeats.map {α β : Type} {compute : Run Memo → Except RenderError α × Run Memo}
    (repeats : Repeats compute run later) (change : α → β) :
    Repeats (fun run => ((compute run).1.map change, (compute run).2)) run later := by
  obtain ⟨cost, spent, same, stops⟩ := repeats
  refine ⟨cost, spent, fun room => (same room).imp_left fun outcome => ?_, fun full => ?_⟩
  · dsimp only
    rw [outcome]
  · dsimp only
    rw [stops full]
    rfl

/-- A computation is repeated if its first step is and the rest is repeated behind it. -/
theorem Repeats.behind {α : Type} {compute : Run Memo → Except RenderError α × Run Memo}
    (rest : Run Memo → Except RenderError α × Run Memo) {middle : Run Memo}
    {cost more : Counter → Nat} (first : compute run = rest middle)
    (spent : run.Spends cost middle) (spentMore : middle.Spends more (rest middle).2)
    (fits : later.HasRoom cost → ∃ reached, compute later = rest reached ∧
      later.Spends cost reached ∧ Repeats rest middle reached)
    (stops : ¬ later.HasRoom cost → (compute later).1 = .error .halted) :
    Repeats compute run later := by
  refine ⟨cost + more, by rw [first]; exact spent.trans spentMore, fun room => ?_, fun full => ?_⟩
  · obtain ⟨reached, again, spentAgain, _, spentToo, same, -⟩ := fits room.left
    obtain rfl := spentMore.unique spentToo
    obtain ⟨outcome, spentRest⟩ := same (spentAgain.hasRoom_iff.1 room)
    rw [first, again]
    exact ⟨outcome, spentAgain.trans spentRest⟩
  · by_cases room : later.HasRoom cost
    · obtain ⟨reached, again, spentAgain, _, spentToo, -, halts⟩ := fits room
      obtain rfl := spentMore.unique spentToo
      rw [again]
      exact halts fun roomBehind => full (spentAgain.hasRoom_iff.2 roomBehind)
    · exact stops room

/-! ## Textures -/

end Renderer

end Blockwright
