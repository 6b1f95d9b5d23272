import Mathlib.Data.List.Nodup
import SdnFirewall.Common.Runs
import SdnFirewall.Packet.Mininet

/-!
# The store of signatures

Calls of `add_pattern` and `remove_pattern` in any order. The list is the built-in signatures
followed by the added ones that still stand, in the order they were added.
-/

namespace SdnFirewall

open Common Python

/-- A call on the store. -/
inductive PatternCall where
  | add (name rawPattern description : Json)
  | remove (name : String)

namespace DPIEngine

/-- The call itself, with its answer: the added signature, or whether one was removed. -/
def call (compile : ReCompile) : PatternCall → Prog DPIEngine Empty Exc (DPIPattern ⊕ Bool)
  | .add name rawPattern description => do
    let pattern ← addPattern compile name rawPattern description
    pure (.inl pattern)
  | .remove name => do
    let removed ← removePattern name
    pure (.inr removed)

/-- The store after a call, however it ends. -/
def after (compile : ReCompile) (dpi : DPIEngine) (call : PatternCall) : DPIEngine :=
  ((DPIEngine.call compile call).run dpi).state

/-- The signature a call adds. -/
def added? (compile : ReCompile) (dpi : DPIEngine) (call : PatternCall) : Option DPIPattern :=
  match ((DPIEngine.call compile call).run dpi).val with
  | .ok (.inl pattern) => some pattern
  | _ => none

/-- Does a call take out the signatures of this name? -/
def removes (compile : ReCompile) (dpi : DPIEngine) (name : String) : PatternCall → Bool
  | .add .. => false
  | .remove name' =>
    match ((DPIEngine.call compile (.remove name')).run dpi).val with
    | .ok (.inr true) => name = name'
    | _ => false

/-- No call of the run takes out the signatures of this name. -/
def keeps (compile : ReCompile) : DPIEngine → List PatternCall → String → Bool
  | _, [], _ => true
  | dpi, call :: calls, name =>
    !dpi.removes compile name call && keeps compile (dpi.after compile call) calls name

/-- The signatures that calls of the run add and no later call of it takes out, in the order they
were added. -/
def standing (compile : ReCompile) : DPIEngine → List PatternCall → List DPIPattern
  | _, [] => []
  | dpi, call :: calls =>
    ((dpi.added? compile call).toList.filter fun p =>
        keeps compile (dpi.after compile call) calls p.name) ++
      standing compile (dpi.after compile call) calls

/-- The list is `builtins` followed by `users`, with the checks of `add_pattern` met throughout. -/
structure Stores (builtins users : List DPIPattern) (dpi : DPIEngine) : Prop where
  patterns_eq : dpi.patterns = builtins ++ users
  builtin : ∀ p ∈ builtins, p.builtin = true
  wellFormed : ∀ p ∈ users, p.WellFormed
  limit : users.length ≤ MAX_USER_PATTERNS
  nodup : (dpi.patterns.map DPIPattern.name).Nodup

/-! ## One call -/

variable (compile : ReCompile) {dpi : DPIEngine}

/-- A call that raises leaves the store alone. -/
theorem allOrNothing_call (call : PatternCall) : (DPIEngine.call compile call).AllOrNothing := by
  intro dpi e he
  cases call with
  | add name rawPattern description =>
      have hatomic := allOrNothing_addPattern compile name rawPattern description dpi
      rw [DPIEngine.call, Prog.run_bind, Outcome.andThen] at he ⊢
      cases hval : ((addPattern compile name rawPattern description).run dpi).val with
      | error e' => exact hatomic e' hval
      | ok pattern =>
          rw [hval] at he
          cases he
  | remove name =>
      have hatomic := allOrNothing_removePattern name dpi
      rw [DPIEngine.call, Prog.run_bind, Outcome.andThen] at he ⊢
      cases hval : ((removePattern name).run dpi).val with
      | error e' => exact hatomic e' hval
      | ok removed =>
          rw [hval] at he
          cases he

/-- A call adds a signature, takes out a name, or leaves the store alone. -/
theorem after_cases (dpi : DPIEngine) (call : PatternCall) :
    (∃ name rawPattern description pattern, call = .add name rawPattern description ∧
        dpi.added? compile call = some pattern ∧
        Added compile dpi name rawPattern (dpi.after compile call) pattern) ∨
      (∃ name, call = .remove name ∧ dpi.added? compile call = none ∧
        (∀ n, dpi.removes compile n call = decide (n = name)) ∧
        (removePattern name).Yields dpi true (dpi.after compile call)) ∨
      (dpi.added? compile call = none ∧ (∀ n, dpi.removes compile n call = false) ∧
        dpi.after compile call = dpi) := by
  cases hval : ((DPIEngine.call compile call).run dpi).val with
  | error e =>
      -- a call that raises has stored nothing: its last statement is the one that stores
      refine Or.inr (Or.inr ⟨?_, fun n => ?_, allOrNothing_call compile call dpi e hval⟩)
      · rw [added?, hval]
      · cases call with
        | add => rfl
        | remove name => rw [removes, hval]
  | ok answer =>
      have hcall : (DPIEngine.call compile call).Yields dpi answer (dpi.after compile call) :=
        ⟨hval, rfl⟩
      cases call with
      | add name rawPattern description =>
          obtain ⟨pattern, hadd, hpure⟩ := Prog.yields_bind_iff.mp hcall
          obtain ⟨rfl, hstate⟩ := Prog.yields_pure_iff.mp hpure
          refine Or.inl ⟨name, rawPattern, description, pattern, rfl, ?_, ?_⟩
          · rw [added?, hval]
          · exact added_of_addPattern ⟨hadd, hstate⟩
      | remove name =>
          obtain ⟨removed, hremove, hpure⟩ := Prog.yields_bind_iff.mp hcall
          obtain ⟨rfl, hstate⟩ := Prog.yields_pure_iff.mp hpure
          -- `False` is returned for a name that is not in the store
          cases removed with
          | true =>
              refine Or.inr (Or.inl ⟨name, rfl, ?_, fun n => ?_, hremove, hstate⟩)
              · rw [added?, hval]
              · rw [removes, hval]
          | false =>
              refine Or.inr (Or.inr ⟨?_, fun n => ?_, eq_of_not_removed ⟨hremove, hstate⟩⟩)
              · rw [added?, hval]
              · rw [removes, hval]

/-- The signatures that count against the limit are those of users. -/
theorem Stores.userPatterns_eq {builtins users : List DPIPattern} (h : Stores builtins users dpi) :
    dpi.patterns.filter (fun p => ¬ p.builtin) = users := by
  rw [h.patterns_eq, List.filter_append, List.filter_eq_nil_iff.mpr, List.nil_append]
  · exact List.filter_eq_self.mpr fun p hp => by simp [(h.wellFormed p hp).user]
  · exact fun p hp => by simp [h.builtin p hp]

variable {compile} in
/-- An added signature comes last. -/
theorem Stores.add {builtins users : List DPIPattern} {name rawPattern : Json} {dpi' : DPIEngine}
    {pattern : DPIPattern} (h : Stores builtins users dpi)
    (hadd : Added compile dpi name rawPattern dpi' pattern) :
    Stores builtins (users ++ [pattern]) dpi' := by
  refine ⟨?_, h.builtin, ?_, ?_, ?_⟩
  · rw [hadd.patterns_eq, h.patterns_eq, List.append_assoc]
  · intro p hp
    rcases List.mem_append.mp hp with hp | hp
    · exact h.wellFormed p hp
    · rw [List.mem_singleton.mp hp]
      exact hadd.wellFormed
  · have hroom := hadd.room
    rw [h.userPatterns_eq] at hroom
    rw [List.length_append]
    exact hroom
  · rw [hadd.patterns_eq, List.map_append]
    refine List.Nodup.append h.nodup (List.nodup_singleton _) ?_
    rw [List.map_singleton, List.disjoint_singleton]
    intro hmem
    obtain ⟨p, hp, hname⟩ := List.mem_map.mp hmem
    exact hadd.fresh p hp hname

/-- A removal takes out the users of its name, and no built-in signature. -/
theorem Stores.remove {builtins users : List DPIPattern} {name : String} {dpi' : DPIEngine}
    (h : Stores builtins users dpi) (hremove : (removePattern name).Yields dpi true dpi') :
    Stores builtins (users.filter fun p => p.name ≠ name) dpi' := by
  obtain ⟨⟨target, htarget, hname, huser⟩, hpatterns⟩ := removed_of_removePattern hremove
  -- names are distinct, so a name that a user signature has is no built-in one's
  have hbuiltins : builtins.filter (fun p => p.name ≠ name) = builtins := by
    refine List.filter_eq_self.mpr fun p hp => decide_eq_true fun heq => ?_
    have hmem : p ∈ dpi.patterns := h.patterns_eq ▸ List.mem_append_left _ hp
    obtain rfl := List.inj_on_of_nodup_map h.nodup hmem htarget (heq.trans hname.symm)
    rw [h.builtin p hp] at huser
    cases huser
  refine ⟨?_, h.builtin, fun p hp => h.wellFormed p (List.mem_of_mem_filter hp), ?_, ?_⟩
  · rw [hpatterns, h.patterns_eq, List.filter_append, hbuiltins]
  · exact (List.length_filter_le ..).trans h.limit
  · rw [hpatterns]
    exact h.nodup.sublist (List.filter_sublist.map _)

/-- A call keeps what the list is made of: the users it does not take out, then the one it adds. -/
theorem Stores.after {builtins users : List DPIPattern} (h : Stores builtins users dpi)
    (call : PatternCall) :
    Stores builtins
      ((users.filter fun p => !dpi.removes compile p.name call) ++
        (dpi.added? compile call).toList) (dpi.after compile call) := by
  rcases after_cases compile dpi call with
    ⟨name, rawPattern, description, pattern, rfl, hadded, hadd⟩ |
      ⟨name, rfl, hadded, hremoves, hremove⟩ | ⟨hadded, hremoves, hafter⟩
  · have hold : users.filter (fun p =>
        !dpi.removes compile p.name (.add name rawPattern description)) = users :=
      List.filter_eq_self.mpr fun _ _ => rfl
    rw [hold, hadded, Option.toList_some]
    exact h.add hadd
  · have husers : users.filter (fun p => !dpi.removes compile p.name (.remove name)) =
        users.filter (fun p => p.name ≠ name) :=
      List.filter_congr fun p _ => by rw [hremoves, decide_not]
    rw [husers, hadded, Option.toList_none, List.append_nil]
    exact h.remove hremove
  · rw [hadded, hafter, List.filter_eq_self.mpr fun p _ => by rw [hremoves]; rfl,
      Option.toList_none, List.append_nil]
    exact h

/-! ## Runs of calls -/

/-- After a run stand the users nothing took out and, in order, the additions nothing took out. -/
theorem Stores.run {builtins users : List DPIPattern} (h : Stores builtins users dpi)
    (calls : List PatternCall) :
    Stores builtins
      ((users.filter fun p => keeps compile dpi calls p.name) ++ standing compile dpi calls)
      (runFrom (DPIEngine.after compile) dpi calls) := by
  induction calls generalizing dpi users with
  | nil =>
      simp only [keeps, standing, List.filter_true, List.append_nil]
      exact h
  | cons call calls ih =>
      have hrest := ih (h.after compile call)
      rw [List.filter_append, List.filter_filter, List.append_assoc] at hrest
      simp only [keeps, standing, runFrom_cons, Bool.and_comm (!_)]
      exact hrest

/-- The store starts with the built-in signatures and no others. -/
theorem stores_of_init {compile : ReCompile} (h : init compile = .ok dpi) :
    Stores dpi.patterns [] dpi where
  patterns_eq := (List.append_nil _).symm
  builtin := builtin_of_init h
  wellFormed := fun _ hp => absurd hp List.not_mem_nil
  limit := Nat.zero_le _
  nodup := by
    rw [names_of_init h]
    decide

end DPIEngine

/-- After any calls the list is the built-in signatures followed by the standing additions, with
every check of `add_pattern` met; a call that raises or removes nothing leaves it alone, and an
addition is undone by removing its name. -/
theorem patternStore {compile compile' : ReCompile} {dpi₀ : DPIEngine}
    (hinit : DPIEngine.init compile = .ok dpi₀) (calls : List PatternCall) :
    let dpi := runFrom (DPIEngine.after compile') dpi₀ calls
    dpi₀.patterns.map DPIPattern.name = builtinDpiPatterns.map Prod.fst ∧
      DPIEngine.Stores dpi₀.patterns (DPIEngine.standing compile' dpi₀ calls) dpi ∧
      (∀ call, ((∃ e, ((DPIEngine.call compile' call).run dpi).val = .error e) ∨
          ((DPIEngine.call compile' call).run dpi).val = .ok (.inr false)) →
        dpi.after compile' call = dpi) ∧
      ∀ name rawPattern description dpi' pattern,
        (DPIEngine.addPattern compile' name rawPattern description).Yields dpi pattern dpi' →
          (∃ s, name = .str s ∧ pattern.name = strip s) ∧
            (DPIEngine.removePattern pattern.name).Yields dpi' true dpi := by
  refine ⟨DPIEngine.names_of_init hinit, (DPIEngine.stores_of_init hinit).run compile' calls,
    ?_, ?_⟩
  -- a call that raises leaves the store alone; one that removes nothing neither adds nor removes
  · rintro call (⟨e, he⟩ | hfalse)
    · exact DPIEngine.allOrNothing_call compile' call _ e he
    rcases DPIEngine.after_cases compile' (runFrom (DPIEngine.after compile') dpi₀ calls) call with
      ⟨name, rawPattern, description, pattern, rfl, hadded, -⟩ | ⟨name, rfl, -, hremoves, -⟩ |
        ⟨-, -, hafter⟩
    · rw [DPIEngine.added?, hfalse] at hadded
      cases hadded
    · have hname := hremoves name
      rw [DPIEngine.removes, hfalse] at hname
      simp at hname
    · exact hafter
  · intro name rawPattern description dpi' pattern hadd
    have hadded := DPIEngine.added_of_addPattern hadd
    exact ⟨hadded.name_eq, DPIEngine.removePattern_of_added hadded⟩

/-- A signature is added under a padded name; its name is taken and a built-in one stays. -/
def commentCalls : List PatternCall :=
  [.add (.str " DASHES ") (.str "--") (.str ""), .add (.str "DASHES") (.str "--") (.str ""),
    .remove "SQL_INJECTION", .add (.str "MORE") (.str "--") (.str ""), .remove "MORE"]

/-- What is left of these calls is the first signature, behind the built-in ones. -/
theorem patternStore_commentCalls :
    let dpi := runFrom (DPIEngine.after fun _ => .ok hasComment) builtinEngine commentCalls
    DPIEngine.Stores builtinEngine.patterns
        (DPIEngine.standing (fun _ => .ok hasComment) builtinEngine commentCalls) dpi ∧
      dpi.patterns.map DPIPattern.name = ["SQL_INJECTION", "SHELLCODE_NOP_SLED",
        "XSS_SCRIPT_TAG", "PATH_TRAVERSAL", "CMD_INJECTION", "FTP_CLEARTEXT_CREDS", "DASHES"] :=
  have hinit : DPIEngine.init builtinCompile = .ok builtinEngine := rfl
  ⟨(patternStore hinit commentCalls).2.1, by decide +kernel⟩

end SdnFirewall
