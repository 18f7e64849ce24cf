import Bir.Proofs.Code
import Bir.Proofs.Modules

/-!
# Bodies — where blocks get the statements that they run

A block is declared by a statement, which gives it a body, or it takes the body of another block.
So what holds of the statements of all bodies, and of the bodies that are declared, goes on to hold.
This file defines `Block.Runs` and shows this for every move: `Move.runs` and `LoadMove.runs`, from
`Move.everyBlock` and `LoadMove.everyBlock` for all that can be told by blocks without their state.
-/

namespace Bir

/-- The statements that calls of a block run, its `init` section included, have a property. -/
def Block.Runs (holds : Statement → Prop) (block : Block) : Prop :=
  ∀ init program, block.body = .interpreted init program →
    (∀ statement ∈ program, holds statement) ∧
      ∀ section' ∈ init, ∀ statement ∈ section', holds statement

namespace Block.Runs

variable {holds : Statement → Prop} {block block' : Block}

theorem of_body (h : block.Runs holds) (same : block'.body = block.body) : block'.Runs holds := by
  intro init program hbody
  exact h init program (same ▸ hbody)

theorem mono {holds' : Statement → Prop} (h : block.Runs holds)
    (weaker : ∀ statement, holds statement → holds' statement) : block.Runs holds' := by
  intro init program hbody
  obtain ⟨hprogram, hinit⟩ := h init program hbody
  exact ⟨fun statement hmem => weaker statement (hprogram statement hmem),
    fun section' hsection statement hmem => weaker statement (hinit section' hsection statement hmem)⟩

theorem native (owner : EngineId) (name : String) : (Block.native owner name).Runs holds := by
  intro init program hbody
  cases hbody

theorem declared {name : Identifier} {verbs arguments : List Identifier}
    {init : Option (List Statement)} {program : List Statement} {position : Position}
    (bodies : ∀ body ∈ (@Statement.block name verbs arguments init program position).bodies,
      ∀ inner ∈ body, holds inner)
    (owner : EngineId) (asked given : List String) :
    (Block.declared owner name.name asked given init program).Runs holds := by
  intro init' program' hbody
  cases hbody
  refine ⟨bodies program (by simp [Statement.bodies]), fun section' hsection => ?_⟩
  exact bodies section' (by simp [Statement.bodies, Option.mem_def.1 hsection])

/-- A block that is not there runs nothing. -/
theorem missing : (default : Block).Runs holds := by
  intro init program hbody
  cases hbody
  refine ⟨?_, ?_⟩
  · intro statement hmem
    change statement ∈ [] at hmem
    cases hmem
  · intro section' hsection
    change section' ∈ none at hsection
    cases hsection

end Block.Runs

/-- What is told by a block without its state holds of all blocks as long as it holds of those that
are declared. -/
theorem Move.everyBlock {allowed : EngineId → Statement → Prop} {holds : Block → Prop}
    {moment moment' : Moment} (move : Move allowed moment moment')
    (stateless : ∀ block initialized store, holds block → holds { block with initialized, store })
    (declared : ∀ {self name verbs arguments init program position},
      allowed self (@Statement.block name verbs arguments init program position) →
        ∀ asked given, holds (.declared self name.name asked given init program))
    (implementing : ∀ {self name parent populate position},
      allowed self (@Statement.implementing name parent populate position) →
        ∀ ref, holds (.implementing self name.name (moment.state.graph.block ref)))
    (h : moment.state.graph.EveryBlock holds) : moment'.state.graph.EveryBlock holds := by
  cases move with
  | write name value => exact h.update _ name value
  | slotWrite index value => exact h.update _ (Slot.name index) value
  | slotPush => exact h.modify _ fun _ _ => Or.inl
  | slotErase => exact h.delete _ _
  | closeBinding => exact h.modify _ fun _ _ => Or.inl
  | lend => exact h.modify _ fun _ _ => Or.inl
  | giveBack => exact h.modify _ fun _ _ => Or.inl
  | openBlock statement missing =>
      refine h.modify _ fun scope block hmem => ?_
      rcases List.mem_append.1 hmem with hold | hnew
      · exact Or.inl hold
      · rw [List.mem_singleton.1 hnew]
        exact Or.inr (declared statement _ _)
  | openImplementing statement implemented missing =>
      refine h.modify _ fun scope block hmem => ?_
      rcases List.mem_append.1 hmem with hold | hnew
      · exact Or.inl hold
      · rw [List.mem_singleton.1 hnew]
        exact Or.inr (implementing statement _)
  -- A block gets a store and is otherwise as it was.
  | @attachStore pending self state ref name =>
      exact (h.add (by rfl)).modifyBlock ref fun block => stateless block block.initialized _
  | closeBlock => exact h.markInitialized _ _ fun block => stateless block true _
  | @closeSeeded pending self ref name store state values =>
      have hseeded : (state.modifyScope store (Declaration.seed values)).graph.EveryBlock holds :=
        h.modify store fun _ _ => Or.inl
      exact hseeded.markInitialized _ _ fun block => stateless block true _
  | makeStore => exact h.add rfl
  | enterCall => exact h.add (by rfl)
  | enterTurn => exact h.add (by rfl)
  | _ => exact h

/-- Loading declares no block but the native one. -/
theorem LoadMove.everyBlock {holds : Block → Prop} {moment moment' : Moment}
    (move : LoadMove moment moment') (native : ∀ self, holds (.native self Console.blockName))
    (h : moment.state.graph.EveryBlock holds) : moment'.state.graph.EveryBlock holds := by
  cases move with
  | @native pending self state =>
      refine h.modify _ fun scope block hmem => ?_
      rcases List.mem_append.1 hmem with hold | hnew
      · exact Or.inl hold
      · rw [List.mem_singleton.1 hnew]
        exact Or.inr (native self)
  | @openModule pending self state path content =>
      rw [State.graph_addEngine]
      exact h.add rfl
  | @expose pending importer module state =>
      rw [State.graph_expose]
      refine ScopeGraph.EveryBlock.modify ?_ _ fun _ _ => Or.inl
      exact h.modify _ fun _ _ => Or.inl
  | _ => exact h

/-- A run that has not begun has no blocks. -/
theorem State.initial_everyBlock {holds : Block → Prop} (config : Config) (files : FileTree)
    (source : Source) (path : Path) (content : String) :
    (State.initial config files source path content).graph.EveryBlock holds := by
  have hempty : ({} : ScopeGraph).EveryBlock holds := by
    intro id block hmem
    simp [ScopeGraph.get] at hmem
  rw [initial, graph_addEngine]
  exact hempty.add rfl

/-- No step of an evaluation brings other statements in than those of bodies that it declares. -/
theorem Move.runs {allowed : EngineId → Statement → Prop} {holds : Statement → Prop}
    {moment moment' : Moment} (move : Move allowed moment moment')
    (bodies : ∀ {self statement}, allowed self statement → ∀ body ∈ statement.bodies,
      ∀ inner ∈ body, holds inner)
    (h : moment.state.graph.EveryBlock (Block.Runs holds)) :
    moment'.state.graph.EveryBlock (Block.Runs holds) :=
  move.everyBlock (fun _ _ _ hblock => hblock.of_body rfl)
    (fun statement _ _ => .declared (bodies statement) _ _ _)
    (fun _ ref => (h.block .missing ref).of_body rfl) h

/-- No step of loading gives a block a body. -/
theorem LoadMove.runs {holds : Statement → Prop} {moment moment' : Moment}
    (move : LoadMove moment moment') (h : moment.state.graph.EveryBlock (Block.Runs holds)) :
    moment'.state.graph.EveryBlock (Block.Runs holds) :=
  move.everyBlock (fun _ => .native _ _) h

end Bir
