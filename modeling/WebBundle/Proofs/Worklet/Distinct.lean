import WebBundle.Proofs.Build.Counters
import WebBundle.Proofs.Worklet.Request

/-!
# Distinct worklets

Two worklets of a build share nothing if their numbers differ: neither the generated
variable, nor the name in the loader request, nor the id of the virtual module.  The
calls that a plugin rewrites in waves in a row get different numbers, unless a nested
build sets its counter back between two of the waves or the counter comes round.
-/

namespace WebBundle

namespace Worklet

theorem toString_inj {first second : Nat} : toString first = toString second ↔ first = second := by
  constructor
  · intro heq
    have hdigits : Nat.toDigits 10 first = Nat.toDigits 10 second := by
      rw [← Nat.toList_repr, ← Nat.toList_repr]
      exact congrArg String.toList heq
    rw [← @Nat.ofDigitChars_ten_toDigits first, hdigits, Nat.ofDigitChars_ten_toDigits]
  · rintro rfl
    rfl

theorem variableName_inj {first second : UInt32} :
    variableName first = variableName second ↔ first = second := by
  constructor
  · intro heq
    have hdigits := (String.append_right_inj _).mp ((String.append_left_inj _).mp heq)
    exact UInt32.toNat_inj.mp (toString_inj.mp hdigits)
  · rintro rfl
    rfl

namespace Rewrite

/-- The name of the worklet in its loader request. -/
def loaderName (rewrite : Rewrite) : String := toString rewrite.number.toNat

/-- The id of the virtual module for a worklet that is looked up from a context. -/
def moduleId (rewrite : Rewrite) (context : String) : String :=
  encodeModuleId ⟨rewrite.loaderName, context⟩ rewrite.request

/-- Nothing that is generated for two worklets is the same. -/
structure Apart (first second : Rewrite) : Prop where
  number : first.number ≠ second.number
  variableName : variableName first.number ≠ variableName second.number
  loaderName : first.loaderName ≠ second.loaderName
  loaderRequest : first.loaderRequest ≠ second.loaderRequest
  moduleId : ∀ context other, first.moduleId context ≠ second.moduleId other

theorem apart_of_number_ne {first second : Rewrite} (hne : first.number ≠ second.number) :
    Apart first second := by
  have hname : first.loaderName ≠ second.loaderName := by
    rw [Ne, Rewrite.loaderName, Rewrite.loaderName, toString_inj, UInt32.toNat_inj]
    exact hne
  refine ⟨hne, fun heq => hne (variableName_inj.mp heq), hname, ?_, ?_⟩
  · intro heq
    have hread := congrArg decodeLoaderRequest? heq
    simp only [Rewrite.loaderRequest, decode_encodeLoaderRequest, Option.some.injEq,
      Prod.mk.injEq, LoaderQuery.mk.injEq] at hread
    exact hname hread.1
  · intro context other heq
    have hquery := (encodeModuleId_inj.mp heq).1
    rw [ModuleQuery.mk.injEq] at hquery
    exact hname hquery.1

end Rewrite

end Worklet

/-- The calls that one plugin rewrites. -/
def rewritesOf (plugin : Nat) (rewrites : List Worklet.Rewrite) : List Worklet.Rewrite :=
  rewrites.filter fun rewrite => rewrite.plugin = plugin

namespace World

/-- In waves in a row, a plugin generates different things for different calls unless it
takes part in a nested build that runs between two of the waves or has rewritten as many
calls as its counter has values. -/
theorem rewrites_apart (world : World) (limit : Nat) (start : BuildStart) (plugin : Nat)
    (waves : List (Loader.Numbering × Running))
    (hwaves : waves <:+: world.wavesIn (limit + 1) start)
    (hout : ∀ wave ∈ waves.tail,
      ∀ child ∈ world.nestedInWave start.plan (world.run limit) wave,
        ∀ build ∈ world.buildsIn limit child, ¬ build.Runs plugin)
    (hfew : (rewritesOf plugin
      (waves.flatMap (world.rewritesInWave start.plan (world.run limit)))).length ≤ 2 ^ 32) :
    (rewritesOf plugin
      (waves.flatMap (world.rewritesInWave start.plan (world.run limit)))).Pairwise
        Worklet.Rewrite.Apart := by
  have hchain : waves.IsChain (Loader.Next (world.steps start.plan (world.run limit))) := by
    refine List.IsChain.infix ?_ hwaves
    rw [wavesIn]
    split
    · exact .nil
    · exact Loader.isChain_waves _ _ _
  have hleaves : ∀ wave ∈ waves.tail,
      ∀ visit ∈ Loader.waveLoads (world.steps start.plan (world.run limit)) wave,
        world.LeavesCounter start.plan (world.run limit) plugin visit := by
    intro wave hwave visit hvisit child hchild ended session hrun
    refine world.counter_run ?_ hrun
    exact hout wave hwave child (List.mem_filterMap.mpr ⟨visit, hvisit, hchild⟩)
  obtain ⟨first, last, hcount, _⟩ := countUp_waves plugin hchain hleaves
  have hnodup : (numbersOf plugin
      (waves.flatMap (world.rewritesInWave start.plan (world.run limit)))).Nodup :=
    hcount.nodup (by rwa [numbersOf, List.length_map])
  rw [numbersOf, List.Nodup, List.pairwise_map] at hnodup
  exact hnodup.imp Worklet.Rewrite.apart_of_number_ne

instance (start : BuildStart) (plugin : Nat) : Decidable (start.Runs plugin) := by
  unfold BuildStart.Runs
  infer_instance

/-- A project whose second worklet is found a wave after the first one, while the
nested build of the first one runs. -/
def lateWorklet : FileTree :=
  ⟨[(["p"], .directory),
    (["p", "m.js"], .file "CSS.paintWorklet.addModule('./a.js');import './b.js'".toUTF8),
    (["p", "b.js"], .file "CSS.paintWorklet.addModule('./c.js')".toUTF8),
    (["p", "a.js"], .file "1".toUTF8),
    (["p", "c.js"], .file "2".toUTF8)]⟩

/-- A build of this project with one plugin. -/
def lateStart : BuildStart where
  plan :=
    { options := { input := [⟨none, "./m.js"⟩], workingDirectory := "/p" }
      plugins := [0] }
  session := {}

set_option maxRecDepth 10000 in
/-- A plugin that is not forwarded gives the two worklets different numbers. -/
theorem rewrites_apart_lateWorklet :
    (rewritesOf 0 ((World.wavesIn ⟨[.worklets {}], lateWorklet⟩ 4 lateStart).flatMap
        (World.rewritesInWave ⟨[.worklets {}], lateWorklet⟩ lateStart.plan
          (World.run ⟨[.worklets {}], lateWorklet⟩ 3)))).length = 2 ∧
      (rewritesOf 0 ((World.wavesIn ⟨[.worklets {}], lateWorklet⟩ 4 lateStart).flatMap
        (World.rewritesInWave ⟨[.worklets {}], lateWorklet⟩ lateStart.plan
          (World.run ⟨[.worklets {}], lateWorklet⟩ 3)))).Pairwise Worklet.Rewrite.Apart := by
  have hcases :
      (∀ wave ∈ (World.wavesIn ⟨[.worklets {}], lateWorklet⟩ 4 lateStart).tail,
        ∀ child ∈ World.nestedInWave ⟨[.worklets {}], lateWorklet⟩ lateStart.plan
            (World.run ⟨[.worklets {}], lateWorklet⟩ 3) wave,
          ∀ build ∈ World.buildsIn ⟨[.worklets {}], lateWorklet⟩ 3 child, ¬ build.Runs 0) ∧
        (rewritesOf 0 ((World.wavesIn ⟨[.worklets {}], lateWorklet⟩ 4 lateStart).flatMap
          (World.rewritesInWave ⟨[.worklets {}], lateWorklet⟩ lateStart.plan
            (World.run ⟨[.worklets {}], lateWorklet⟩ 3)))).length = 2 := by
    decide +kernel
  exact ⟨hcases.2, rewrites_apart _ _ _ _ _ List.infix_rfl hcases.1 (by omega)⟩

/-- The settings of a plugin that is forwarded to its own nested builds. -/
def forwardsItself : Worklet.Settings Nat := { plugins := [.named "CssWorkletPlugin"] }

set_option maxRecDepth 10000 in
/-- A plugin that takes part in its own nested builds gives both worklets the number
zero: the nested build of the first one sets the counter back. -/
theorem numbers_collide_of_forwardsItself :
    numbersOf 0 ((World.wavesIn ⟨[.worklets forwardsItself], lateWorklet⟩ 4 lateStart).flatMap
      (World.rewritesInWave ⟨[.worklets forwardsItself], lateWorklet⟩ lateStart.plan
        (World.run ⟨[.worklets forwardsItself], lateWorklet⟩ 3))) = [0, 0] := by
  decide +kernel

end World

end WebBundle
