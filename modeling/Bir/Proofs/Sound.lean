import Bir.Proofs.Bodies
import Bir.Proofs.Source.Scan

/-!
# Sound code — all that is run was read from a source

The frames of a run are those of programs and of blocks, and blocks are declared by statements of
such frames.  So what the grammar knows of all statements of a source holds of every frame.  This
file defines:

* `Block.Sound` and `State.Sound`;
* `Move.sound` and `LoadMove.sound` — no step brings unsound code in.
-/

namespace Bir

/-- A statement with sound names and positions throughout. -/
abbrev Statement.Sound : Statement → Prop := Statement.Throughout Law.sound

/-- The statements of a frame are sound. -/
abbrev FrameSound (statements : List Statement) : Prop := ∀ statement ∈ statements, statement.Sound

/-- The statements that calls of a block run are sound. -/
def Block.Sound (block : Block) : Prop :=
  ∀ init program, block.body = .interpreted init program →
    FrameSound program ∧ ∀ section' ∈ init, FrameSound section'

/-- All blocks and programs of a state are sound. -/
structure State.Sound (state : State) : Prop where
  blocks : state.graph.EveryBlock Block.Sound
  programs : ∀ id, FrameSound (state.engine id).program.statements

/-! ## Positions and names -/

theorem Law.sound_places : Law.sound.Places fun position => position.isSynthetic = false where
  name h := h.2
  keyword h := h

theorem Expression.Throughout.position {expression : Expression}
    (h : expression.Throughout Law.sound) : expression.position.isSynthetic = false :=
  h.placed Law.sound_places

namespace Statement.Throughout

variable {statement : Statement}

theorem position (h : statement.Sound) : statement.position.isSynthetic = false :=
  h.placed Law.sound_places

theorem mark (h : statement.Sound) {position : Position} (hmem : position ∈ statement.marks) :
    position.isSynthetic = false :=
  h.placed_mark Law.sound_places hmem

end Statement.Throughout

/-! ## States -/

namespace State.Sound

variable {state state' : State}

theorem block (h : state.Sound) (ref : BlockRef) : (state.graph.block ref).Sound :=
  h.blocks.block Block.Runs.missing ref

/-- Scopes and stacks may change as long as blocks stay sound. -/
theorem of_blocks (h : state.Sound) (same : SameModules state state')
    (blocks : state'.graph.EveryBlock Block.Sound) : state'.Sound where
  blocks := blocks
  programs id := by
    rw [same.program]
    exact h.programs id

end State.Sound

/-- No step of an evaluation of sound statements brings unsound code in. -/
theorem Move.sound {moment moment' : Moment}
    (move : Move (fun _ statement => statement.Sound) moment moment')
    (h : moment.state.Sound) : moment'.state.Sound :=
  h.of_blocks move.sameModules (move.runs (fun hstatement _ => hstatement.body) h.blocks)

/-- No step of loading brings unsound code in. -/
theorem LoadMove.sound {moment moment' : Moment} (move : LoadMove moment moment')
    (h : moment.state.Sound) : moment'.state.Sound := by
  refine ⟨move.runs h.blocks, fun id => ?_⟩
  cases move with
  | read parsed =>
      simp only [State.engine_modifyEngine]
      split
      · exact Program.ofSource_sound parsed
      · exact h.programs id
  | openModule path content =>
      simp only [State.engine_addEngine]
      split
      · exact fun statement hmem => by cases hmem
      · exact h.programs id
  | expose =>
      simp only [State.engine_expose]
      split
      · exact h.programs id
      · exact h.programs id
  | _ => exact h.programs id

theorem State.initial_sound (config : Config) (files : FileTree) (source : Source) (path : Path)
    (content : String) : (State.initial config files source path content).Sound where
  blocks := State.initial_everyBlock config files source path content
  programs id statement hmem := by
    simp only [State.initial, State.engine_addEngine] at hmem
    split at hmem <;> cases hmem

end Bir
