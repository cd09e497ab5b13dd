import WebBundle.Proofs.Search.Log

/-!
# What searches tell

The log of a search that ends well is told by the accounts of its modules, wave by wave:
it has loaded each module once and in order, scanned it, and asked for its imports.
-/

namespace WebBundle.Loader

section Lists

variable {α β γ : Type}

theorem filter_eq_singleton [DecidableEq β] {key : α → β} {items : List α}
    (hnodup : (items.map key).Nodup) {item : α} (hitem : item ∈ items) :
    items.filter (fun other => key other = key item) = [item] := by
  induction items with
  | nil => cases hitem
  | cons head rest ih =>
      rw [List.map_cons, List.nodup_cons] at hnodup
      cases hitem with
      | head =>
          rw [List.filter_cons_of_pos (by simp), List.filter_eq_nil_iff.mpr]
          intro other hother hsame
          exact hnodup.1 (of_decide_eq_true hsame ▸ List.mem_map_of_mem hother)
      | tail _ hitem =>
          have hother : ¬ key head = key item := fun hsame =>
            hnodup.1 (hsame ▸ List.mem_map_of_mem hitem)
          rw [List.filter_cons_of_neg (by simpa using hother), ih hnodup.2 hitem]

theorem flatMap_filter (keep : α → Prop) [DecidablePred keep] (give : α → List γ)
    (items : List α) :
    (items.flatMap fun item => if keep item then give item else []) =
      (items.filter fun item => keep item).flatMap give := by
  induction items with
  | nil => rfl
  | cons item rest ih =>
      rw [List.flatMap_cons, ih]
      by_cases hkeep : keep item
      · rw [if_pos hkeep, List.filter_cons_of_pos (by simpa using hkeep), List.flatMap_cons]
      · rw [if_neg hkeep, List.filter_cons_of_neg (by simpa using hkeep), List.nil_append]

end Lists

/-! ## Logs of all waves -/

namespace Account

theorem filterMap_wave {γ : Type} (choose : Asked → Option γ) (accounts : List Account) :
    (wave accounts).filterMap choose =
      (accounts.filterMap fun account =>
          choose (.load account.resolved (.ok account.loaded))) ++
        (accounts.filterMap fun account =>
          choose (.scan account.module.id account.loaded (.ok account.module.content))) ++
        accounts.flatMap fun account => account.imports.filterMap choose := by
  rw [wave, List.filterMap_append, List.filterMap_append, List.filterMap_map, List.filterMap_map,
    List.filterMap_flatMap]
  rfl

/-- A wave loads each of its modules once. -/
theorem loads_wave (accounts : List Account) :
    (wave accounts).filterMap Asked.load? =
      accounts.map fun account => (account.resolved, .ok account.loaded) := by
  have himports (account : Account) : account.imports.filterMap Asked.load? = [] := by
    rw [imports, List.filterMap_map]
    exact List.filterMap_eq_nil_iff.mpr fun _ _ => rfl
  simp only [filterMap_wave, Asked.load?, List.filterMap_eq_map', himports]
  simp

/-- The imports of an account, as they were asked for. -/
def answers (account : Account) :
    List ((String × Scan.ImportForm) × Except Report Resolved) :=
  (account.module.content.records.zip account.targets).map fun pair =>
    ((pair.1.specifier, pair.1.form), .ok pair.2)

theorem resolves_wave (id : ModuleId) (accounts : List Account) :
    (wave accounts).filterMap (Asked.resolvedFor? id) =
      (accounts.filter fun account => account.module.id = id).flatMap answers := by
  have himports (account : Account) : account.imports.filterMap (Asked.resolvedFor? id) =
      if account.module.id = id then account.answers else [] := by
    rw [imports, List.filterMap_map]
    by_cases hid : account.module.id = id
    · rw [if_pos hid, answers, ← List.filterMap_eq_map]
      refine List.filterMap_congr fun pair _ => ?_
      exact if_pos hid
    · rw [if_neg hid]
      exact List.filterMap_eq_nil_iff.mpr fun _ _ => if_neg hid
  simp only [filterMap_wave, Asked.resolvedFor?, himports, List.filterMap_none, List.nil_append]
  exact flatMap_filter (fun account => account.module.id = id) answers accounts

end Account

/-- What the log of some waves says of the modules in them. -/
structure Told (accounts : List Account) (log : List Asked) : Prop where
  loads : log.filterMap Asked.load? =
    accounts.map fun account => (account.resolved, .ok account.loaded)
  scans : ∀ account ∈ accounts,
    .scan account.module.id account.loaded (.ok account.module.content) ∈ log
  resolves : ∀ id, log.filterMap (Asked.resolvedFor? id) =
    (accounts.filter fun account => account.module.id = id).flatMap Account.answers

namespace Told

theorem empty : Told [] [] := ⟨rfl, (fun _ haccount => nomatch haccount), fun _ => rfl⟩

theorem wave (accounts : List Account) : Told accounts (Account.wave accounts) where
  loads := Account.loads_wave accounts
  scans _ haccount := List.mem_append_left _ (List.mem_append_right _
    (List.mem_map_of_mem haccount))
  resolves id := Account.resolves_wave id accounts

theorem append {accounts more : List Account} {log later : List Asked} (h : Told accounts log)
    (hmore : Told more later) : Told (accounts ++ more) (log ++ later) where
  loads := by rw [List.filterMap_append, h.loads, hmore.loads, List.map_append]
  scans account haccount := by
    rcases List.mem_append.mp haccount with haccount | haccount
    · exact List.mem_append_left _ (h.scans account haccount)
    · exact List.mem_append_right _ (hmore.scans account haccount)
  resolves id := by
    rw [List.filterMap_append, h.resolves, hmore.resolves, List.filter_append,
      List.flatMap_append]

/-- Each module asked for its own imports. -/
theorem answers {accounts : List Account} {log : List Asked} (h : Told accounts log)
    (hnodup : (accounts.map fun account => account.module.id).Nodup) {account : Account}
    (haccount : account ∈ accounts) :
    log.filterMap (Asked.resolvedFor? account.module.id) = account.answers := by
  rw [h.resolves, filter_eq_singleton hnodup haccount, List.flatMap_singleton]

theorem mem_resolve_iff {accounts : List Account} {log : List Asked} (h : Told accounts log)
    {importer : ModuleId} {specifier : String} {form : Scan.ImportForm} {target : Resolved} :
    .resolve (some importer) specifier form (.ok target) ∈ log ↔
      ∃ account ∈ accounts, account.module.id = importer ∧
        ((specifier, form), .ok target) ∈ account.answers := by
  have hmem : .resolve (some importer) specifier form (.ok target) ∈ log ↔
      ((specifier, form), .ok target) ∈ log.filterMap (Asked.resolvedFor? importer) := by
    rw [List.mem_filterMap]
    constructor
    · exact fun hasked => ⟨_, hasked, if_pos rfl⟩
    · rintro ⟨asked, hasked, hchosen⟩
      cases asked with
      | load resolved answer => cases hchosen
      | scan id loaded answer => cases hchosen
      | resolve other specifier form answer =>
          cases other with
          | none => cases hchosen
          | some other =>
              rw [Asked.resolvedFor?] at hchosen
              split at hchosen
              · rename_i hother
                cases hchosen
                cases hother
                exact hasked
              · cases hchosen
  rw [hmem, h.resolves, List.mem_flatMap]
  simp only [List.mem_filter, decide_eq_true_eq, and_assoc]

end Told

theorem Account.mem_targets {account : Account} {question : String × Scan.ImportForm}
    {target : Resolved} (hanswer : (question, .ok target) ∈ account.answers) :
    target ∈ account.targets := by
  rw [Account.answers, List.mem_map] at hanswer
  obtain ⟨pair, hpair, heq⟩ := hanswer
  cases heq
  exact (List.of_mem_zip hpair).2

theorem Account.exists_answer {account : Account} {target : Resolved}
    (htarget : target ∈ account.targets) :
    ∃ question, (question, .ok target) ∈ account.answers := by
  have htargets : (account.module.content.records.zip account.targets).map Prod.snd =
      account.targets := List.map_snd_zip (Nat.le_of_eq account.length_eq)
  rw [← htargets, List.mem_map] at htarget
  obtain ⟨pair, hpair, rfl⟩ := htarget
  exact ⟨_, List.mem_map_of_mem hpair⟩

variable {σ : Type} {steps : Steps σ}

/-- What the waves of a search tell of its modules; what holds of the modules of a wave
and of what is imported by the modules it holds of, holds of all modules. -/
theorem Runs.told {limit : Nat} {numbering : Numbering} {state last : σ × List Asked}
    {result : Except LoadFailure (List Module)} {modules : List Module} {before : List ModuleId}
    (hruns : Runs steps.logged limit numbering state result last) (hresult : result = .ok modules)
    (h : numbering.Consistent before) :
    ∃ accounts log, last.2 = state.2 ++ log ∧ Told accounts log ∧
      List.Forall₂ (Numbered (before ++ modules.map Module.id)) (accounts.map Account.item)
        modules ∧
      ∀ holds : ModuleId → Prop, (∀ resolved ∈ numbering.wave, holds resolved.id) →
        (∀ account ∈ accounts, holds account.module.id →
          ∀ target ∈ account.targets, holds target.id) →
        ∀ account ∈ accounts, holds account.module.id := by
  induction hruns generalizing modules before with
  | finished hempty =>
      cases hresult
      exact ⟨[], [], (List.append_nil _).symm, .empty, .nil,
        fun _ _ _ _ haccount => nomatch haccount⟩
  | failed => cases hresult
  | @followed limit numbering state first next reached result last _ hwave hrest ih =>
      cases result with
      | error failure => cases hresult
      | ok later =>
          cases hresult
          obtain ⟨done⟩ := runWave_eq_ok hwave
          obtain ⟨accounts, hresolved, hitems, hlog⟩ := done.exists_accounts
          obtain ⟨others, log, hlast, htold, hnumbered, hholds⟩ := ih rfl (done.consistent h)
          have hbegins := (hrest.found rfl (done.consistent h)).2.1
          have hknown : numbering.known = before ++ first.map Module.id := by
            rw [h.known_eq, done.ids_eq]
          rw [List.map_append, ← List.append_assoc, ← hknown]
          refine ⟨accounts ++ others, Account.wave accounts ++ log, ?_,
            (Told.wave accounts).append htold, ?_, ?_⟩
          · rw [hlast, hlog, List.append_assoc]
          · rw [List.map_append, hitems]
            exact List.rel_append (done.numbered.imp fun _ _ h => h.mono hbegins) hnumbered
          · intro holds hentries himports account haccount
            have hfirst : ∀ account ∈ accounts, holds account.module.id := by
              intro account haccount
              rw [account.id_eq]
              apply hentries
              rw [← hresolved]
              exact List.mem_map_of_mem haccount
            rcases List.mem_append.mp haccount with haccount | haccount
            · exact hfirst account haccount
            · refine hholds holds ?_ (fun other hother =>
                himports other (List.mem_append_right _ hother)) account haccount
              intro target htarget
              obtain ⟨item, hitem, htarget⟩ := done.exists_importer htarget
              rw [← hitems] at hitem
              obtain ⟨importer, himporter, rfl⟩ := List.mem_map.mp hitem
              exact himports importer (List.mem_append_left _ himporter)
                (hfirst importer himporter) target htarget

end WebBundle.Loader
