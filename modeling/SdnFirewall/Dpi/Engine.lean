import SdnFirewall.Common.Parts
import SdnFirewall.Common.Python
import SdnFirewall.Packet.Headers

/-!
# The DPI engine

Signatures, their validation and the payload matcher. A compiled regex is a predicate on byte
strings; what `re.compile` makes of a pattern text is left open.
-/

namespace SdnFirewall

open Common Python

/-- Maximum buffered bytes per direction per flow. -/
def MAX_BUFFER_BYTES : ℕ := 8192

/-- Maximum length of a user pattern. -/
def MAX_PATTERN_LEN : ℕ := 512

/-- Maximum number of user patterns. -/
def MAX_USER_PATTERNS : ℕ := 50

/-- `re.compile(text.encode('utf-8'), re.IGNORECASE | re.DOTALL)`: the search predicate of the
compiled regex, or the exception. -/
abbrev ReCompile := String → Except Exc (Bytes → Bool)

/-- A DPI signature. -/
structure DPIPattern where
  name : String
  rawPattern : String
  compiled : Bytes → Bool
  description : Json := .str ""
  enabled : Bool := true
  builtin : Bool := false

/-- Result of `DPIEngine.inspect`. -/
structure DPIVerdict where
  isMatch : Bool
  patternName : Option String := none
  patternDescription : Option Json := none

structure DPIEngine where
  patterns : List DPIPattern

/-- Name, regex and description of the built-in signatures. -/
def builtinDpiPatterns : List (String × String × String) :=
  [("SQL_INJECTION",
    "union\\s+select|drop\\s+table|or\\s+1\\s*=\\s*1|--|;\\s*drop",
    "SQL injection patterns: UNION SELECT, DROP TABLE, OR 1=1, comment sequences"),
   ("SHELLCODE_NOP_SLED",
    "\\x90\x7b16,\x7d",
    "x86 NOP sled (16+ consecutive 0x90 bytes) - likely shellcode prefix"),
   ("XSS_SCRIPT_TAG",
    "<\\s*script[^>]\x7b0,100\x7d>",
    "Cross-site scripting: <script> tag injection"),
   ("PATH_TRAVERSAL",
    "(?:\\.\\.[\\\\/])\x7b2,\x7d|(?:%2e%2e%2f)\x7b2,\x7d",
    "Directory traversal attempts (../../ or URL-encoded)"),
   ("CMD_INJECTION",
    "(?:;|\\|\\||&&|`|\\$\\()\\s*(?:ls|cat|id|whoami|wget|curl|bash|sh|nc|python)",
    "Shell command injection chained with common commands"),
   ("FTP_CLEARTEXT_CREDS",
    "(?:USER|PASS)\\s+\\S+\\r\\n",
    "FTP credentials transmitted in cleartext (alerts on compliance issue)")]

/-- `DANGEROUS_RE.search`: a closing parenthesis followed by `+`, by `*`, or by a brace group. -/
def dangerous : List Char → Bool
  | [] => false
  | ')' :: '+' :: _ => true
  | ')' :: '*' :: _ => true
  | ')' :: '\x7b' :: cs => cs.contains '\x7d' || dangerous cs
  | _ :: cs => dangerous cs

/-- A character of a pattern name. -/
def nameChar (c : Char) : Bool :=
  ('A' ≤ c ∧ c ≤ 'Z') ∨ ('a' ≤ c ∧ c ≤ 'z') ∨ ('0' ≤ c ∧ c ≤ '9') ∨ c = '_' ∨ c = '-'

/-- `re.match` of the name regex; its end anchor also matches before a final newline. -/
def nameMatches (cs : List Char) : Bool :=
  let body := if cs.getLast? = some '\n' then cs.dropLast else cs
  body ≠ [] ∧ body.all nameChar

namespace DPIEngine

/-- `_init_builtin_patterns`: compile and register the built-in signatures. -/
def init (compile : ReCompile) : Except Exc DPIEngine := do
  let patterns ← builtinDpiPatterns.mapM fun (name, rawPattern, description) => do
    let compiled ← compile rawPattern
    return { name, rawPattern, compiled, description := .str description, builtin := true }
  return ⟨patterns⟩

/-- Run all enabled patterns against the bytes and report the first match. -/
def inspect (dpi : DPIEngine) (payload : Bytes) : DPIVerdict :=
  if payload.isEmpty then { isMatch := false }
  else match dpi.patterns.find? fun p => p.enabled && p.compiled payload with
    | some p =>
      { isMatch := true, patternName := some p.name, patternDescription := some p.description }
    | none => { isMatch := false }

/-- `add_pattern`: validate and add a user-defined pattern. The arguments come from a decoded
request body, so they need not be strings. -/
def addPattern (compile : ReCompile) (name rawPattern description : Json) :
    Prog DPIEngine Empty Exc DPIPattern := do
  let name ← Prog.ofExcept name.asStr
  let name := strip name
  if name = "" then
    Prog.raise (.valueError "Pattern name is required")
  if name.length > 64 then
    Prog.raise (.valueError "Pattern name is too long")
  if ¬ nameMatches name.toList then
    Prog.raise (.valueError "Pattern name is invalid")
  let dpi ← Prog.read
  if dpi.patterns.any (fun p => p.name = name) then
    Prog.raise (.valueError ("Pattern \"" ++ name ++ "\" already exists"))
  if ¬ rawPattern.truthy then
    Prog.raise (.valueError "Pattern body is required")
  let rawPattern ← Prog.ofExcept rawPattern.asStr
  if strip rawPattern = "" then
    Prog.raise (.valueError "Pattern body is required")
  if rawPattern.length > MAX_PATTERN_LEN then
    Prog.raise
      (.valueError ("Pattern body is too long (max " ++ toString MAX_PATTERN_LEN ++ " chars)"))
  if dangerous rawPattern.toList then
    Prog.raise (.valueError ("Pattern contains constructs that risk catastrophic backtracking. " ++
      "Use a simpler pattern"))
  let dpi ← Prog.read
  let userCount := (dpi.patterns.filter fun p => ¬ p.builtin).length
  if userCount ≥ MAX_USER_PATTERNS then
    Prog.raise
      (.valueError ("User pattern limit reached (max " ++ toString MAX_USER_PATTERNS ++ ")"))
  let compiled ← (Prog.ofExcept (compile rawPattern)).tryCatch fun
    | .reError e => Prog.raise (.valueError ("Invalid regex syntax: " ++ e))
    | e => Prog.raise e
  let pattern : DPIPattern :=
    { name, rawPattern, compiled, description, enabled := true, builtin := false }
  Prog.modify fun dpi => ⟨dpi.patterns ++ [pattern]⟩
  pure pattern

/-- `remove_pattern`: remove a user-defined pattern by name. -/
def removePattern (name : String) : Prog DPIEngine Empty Exc Bool := do
  let dpi ← Prog.read
  match dpi.patterns.find? fun p => p.name = name with
  | none => pure false
  | some target =>
    if target.builtin then
      Prog.raise (.valueError ("Pattern \"" ++ name ++ "\" is built-in and cannot be removed"))
    Prog.modify fun dpi => ⟨dpi.patterns.filter fun p => p.name ≠ name⟩
    pure true

/-! ## What inspection says -/

/-- Inspection matches exactly when the bytes are non-empty and an enabled pattern hits them. -/
theorem inspect_isMatch_iff {dpi : DPIEngine} {b : Bytes} :
    (dpi.inspect b).isMatch = true ↔
      b ≠ [] ∧ ∃ p ∈ dpi.patterns, p.enabled = true ∧ p.compiled b = true := by
  unfold inspect
  cases b with
  | nil => simp
  | cons x xs =>
      simp only [List.isEmpty_cons, Bool.false_eq_true, if_false, ne_eq, reduceCtorEq,
        not_false_eq_true, true_and]
      split
      · rename_i p hp
        have hmem := List.mem_of_find?_eq_some hp
        have hpred := List.find?_some hp
        simp only [Bool.and_eq_true] at hpred
        exact ⟨fun _ => ⟨p, hmem, hpred⟩, fun _ => rfl⟩
      · rename_i hnone
        rw [List.find?_eq_none] at hnone
        simp only [Bool.and_eq_true] at hnone
        refine ⟨fun h => absurd h (by simp), ?_⟩
        rintro ⟨p, hp, hpp⟩
        exact absurd hpp (hnone p hp)

/-! ## The built-in signatures -/

/-- Every built-in signature is what its text compiles to. -/
theorem compile_of_init {compile : ReCompile} {dpi : DPIEngine}
    (h : init compile = .ok dpi) {p : DPIPattern} (hp : p ∈ dpi.patterns) :
    compile p.rawPattern = .ok p.compiled := by
  obtain ⟨patterns, hm, h⟩ := exists_of_bind_eq_ok h
  cases h
  obtain ⟨⟨name, rawPattern, description⟩, -, hf⟩ := mem_mapM hm hp
  obtain ⟨compiled, hc, hf⟩ := exists_of_bind_eq_ok hf
  cases hf
  exact hc

/-- The built-in signatures are listed in the order of their table. -/
theorem names_of_init {compile : ReCompile} {dpi : DPIEngine} (h : init compile = .ok dpi) :
    dpi.patterns.map DPIPattern.name = builtinDpiPatterns.map Prod.fst := by
  obtain ⟨patterns, hm, h⟩ := exists_of_bind_eq_ok h
  cases h
  refine map_of_mapM ?_ hm
  rintro ⟨name, rawPattern, description⟩ p hf
  obtain ⟨compiled, -, hf⟩ := exists_of_bind_eq_ok hf
  cases hf
  rfl

/-- At first every pattern is built in. -/
theorem builtin_of_init {compile : ReCompile} {dpi : DPIEngine} (h : init compile = .ok dpi) :
    ∀ p ∈ dpi.patterns, p.builtin = true := by
  obtain ⟨patterns, hm, h⟩ := exists_of_bind_eq_ok h
  cases h
  intro p hp
  obtain ⟨⟨name, rawPattern, description⟩, -, hf⟩ := mem_mapM hm hp
  obtain ⟨compiled, -, hf⟩ := exists_of_bind_eq_ok hf
  cases hf
  rfl

/-! ## What an accepted signature is -/

/-- The pattern-name regex on a name that does not end in white space. -/
theorem nameChar_of_nameMatches {s : String} (h : nameMatches (strip s).toList = true) :
    ∀ c ∈ (strip s).toList, nameChar c = true := by
  have hend : (strip s).toList.getLast? ≠ some '\n' :=
    fun hlast => absurd (isSpace_of_getLast?_strip hlast) (by decide)
  rw [nameMatches, if_neg hend] at h
  exact List.all_eq_true.mp (of_decide_eq_true h).2

end DPIEngine

/-- A signature as the checks of `add_pattern` let it through. -/
structure DPIPattern.WellFormed (p : DPIPattern) : Prop where
  name_pos : 0 < p.name.length
  name_length : p.name.length ≤ 64
  name_chars : ∀ c ∈ p.name.toList, nameChar c = true
  body_ne : strip p.rawPattern ≠ ""
  body_length : p.rawPattern.length ≤ MAX_PATTERN_LEN
  body_safe : dangerous p.rawPattern.toList = false
  user : p.builtin = false

namespace DPIEngine

/-- What a call of `add_pattern` that returns has found and done. -/
structure Added (compile : ReCompile) (dpi : DPIEngine) (name rawPattern : Json) (dpi' : DPIEngine)
    (pattern : DPIPattern) : Prop where
  name_eq : ∃ s, name = .str s ∧ pattern.name = strip s
  body_eq : rawPattern = .str pattern.rawPattern
  compiles : compile pattern.rawPattern = .ok pattern.compiled
  fresh : ∀ p ∈ dpi.patterns, p.name ≠ pattern.name
  room : (dpi.patterns.filter fun p => ¬ p.builtin).length < MAX_USER_PATTERNS
  wellFormed : pattern.WellFormed
  patterns_eq : dpi'.patterns = dpi.patterns ++ [pattern]

/-- Only a JSON string is a string. -/
theorem asStr_eq_ok {x : Json} {s : String} (h : x.asStr = .ok s) : x = .str s := by
  cases x <;> cases h
  rfl

/-- A call of `add_pattern` that returns has passed every check, and its signature comes last. -/
theorem added_of_addPattern {compile : ReCompile} {dpi dpi' : DPIEngine}
    {name rawPattern description : Json} {pattern : DPIPattern}
    (h : (addPattern compile name rawPattern description).Yields dpi pattern dpi') :
    Added compile dpi name rawPattern dpi' pattern := by
  -- the checks one after another, as the call makes them
  obtain ⟨s, hname, h⟩ := Prog.yields_ofExcept_bind_iff.mp h
  obtain ⟨hne, h⟩ := Prog.yields_check_bind_iff.mp h
  obtain ⟨hlength, h⟩ := Prog.yields_check_bind_iff.mp h
  obtain ⟨hchars, h⟩ := Prog.yields_check_bind_iff.mp h
  replace h := Prog.yields_read_bind_iff.mp h
  obtain ⟨hfresh, h⟩ := Prog.yields_check_bind_iff.mp h
  obtain ⟨-, h⟩ := Prog.yields_check_bind_iff.mp h
  obtain ⟨raw, hraw, h⟩ := Prog.yields_ofExcept_bind_iff.mp h
  obtain ⟨hblank, h⟩ := Prog.yields_check_bind_iff.mp h
  obtain ⟨hlong, h⟩ := Prog.yields_check_bind_iff.mp h
  obtain ⟨hsafe, h⟩ := Prog.yields_check_bind_iff.mp h
  replace h := Prog.yields_read_bind_iff.mp h
  obtain ⟨hroom, h⟩ := Prog.yields_check_bind_iff.mp h
  obtain ⟨compiled, hcompile, h⟩ :=
    (Prog.yields_reraise_bind_iff fun e => by cases e <;> exact ⟨_, rfl⟩).mp h
  replace h := Prog.yields_modify_bind_iff.mp h
  obtain ⟨rfl, rfl⟩ := Prog.yields_pure_iff.mp h
  refine ⟨⟨s, asStr_eq_ok hname, rfl⟩, asStr_eq_ok hraw, hcompile, ?_, not_le.mp hroom,
    ⟨?_, not_lt.mp hlength, nameChar_of_nameMatches (not_not.mp hchars), hblank,
      not_lt.mp hlong, eq_false_of_ne_true hsafe, rfl⟩, rfl⟩
  · simpa using hfresh
  · exact Nat.pos_of_ne_zero fun hzero => hne (String.length_eq_zero_iff.mp hzero)

/-- A call of `add_pattern` that raises has not got to its assignment. -/
theorem allOrNothing_addPattern (compile : ReCompile) (name rawPattern description : Json) :
    (addPattern compile name rawPattern description).AllOrNothing := by
  refine Prog.allOrNothing_bind (Prog.confined_ofExcept (P := fun _ => True) _) fun name => ?_
  refine Prog.allOrNothing_check_bind ?_
  refine Prog.allOrNothing_check_bind ?_
  refine Prog.allOrNothing_check_bind ?_
  refine Prog.allOrNothing_bind (Prog.confined_read (P := fun _ => True)) fun dpi => ?_
  refine Prog.allOrNothing_check_bind ?_
  refine Prog.allOrNothing_check_bind ?_
  refine Prog.allOrNothing_bind (Prog.confined_ofExcept (P := fun _ => True) _) fun raw => ?_
  refine Prog.allOrNothing_check_bind ?_
  refine Prog.allOrNothing_check_bind ?_
  refine Prog.allOrNothing_check_bind ?_
  refine Prog.allOrNothing_bind (Prog.confined_read (P := fun _ => True)) fun dpi => ?_
  refine Prog.allOrNothing_check_bind ?_
  refine Prog.allOrNothing_bind (Prog.confined_reraise (P := fun _ => True) ?_) fun compiled => ?_
  · intro e
    cases e <;> exact ⟨_, rfl⟩
  · exact Prog.allOrNothing_of_returns fun dpi => ⟨_, rfl⟩

/-! ## Removal -/

/-- Fewer patterns match less. -/
theorem inspect_mono {dpi dpi' : DPIEngine} (hsub : ∀ p ∈ dpi'.patterns, p ∈ dpi.patterns)
    {b : Bytes} (h : (dpi.inspect b).isMatch = false) : (dpi'.inspect b).isMatch = false := by
  rw [← Bool.not_eq_true] at h ⊢
  rw [inspect_isMatch_iff] at h ⊢
  rintro ⟨hb, p, hp, hpp⟩
  exact h ⟨hb, p, hsub p hp, hpp⟩

/-- An unknown name removes nothing, a built-in pattern raises, and any other goes. -/
theorem run_removePattern (name : String) (dpi : DPIEngine) :
    (removePattern name).run dpi =
      match dpi.patterns.find? fun p => p.name = name with
      | none => ⟨.ok false, dpi, []⟩
      | some target =>
        if target.builtin then
          ⟨.error (.valueError ("Pattern \"" ++ name ++ "\" is built-in and cannot be removed")),
            dpi, []⟩
        else ⟨.ok true, ⟨dpi.patterns.filter fun p => p.name ≠ name⟩, []⟩ := by
  simp only [removePattern, Prog.run_bind, Prog.run_read, Outcome.andThen_ok]
  cases dpi.patterns.find? fun p => p.name = name with
  | none => rfl
  | some target =>
      dsimp only
      split <;> rfl

/-- A removal that succeeds found a user signature, and takes out all of that name. -/
theorem removed_of_removePattern {dpi dpi' : DPIEngine} {name : String}
    (h : (removePattern name).Yields dpi true dpi') :
    (∃ p ∈ dpi.patterns, p.name = name ∧ p.builtin = false) ∧
      dpi'.patterns = dpi.patterns.filter fun p => p.name ≠ name := by
  rw [Prog.Yields, run_removePattern] at h
  split at h
  · cases h.1
  · rename_i target htarget
    split at h
    · cases h.1
    · rename_i hbuiltin
      obtain ⟨-, rfl⟩ := h
      exact ⟨⟨target, List.mem_of_find?_eq_some htarget,
        of_decide_eq_true (List.find?_some htarget :), eq_false_of_ne_true hbuiltin⟩, rfl⟩

/-- A removal that reports nothing removed leaves the engine as it was. -/
theorem eq_of_not_removed {dpi dpi' : DPIEngine} {name : String}
    (h : (removePattern name).Yields dpi false dpi') : dpi' = dpi := by
  rw [Prog.Yields, run_removePattern] at h
  split at h
  · exact h.2.symm
  · split at h <;> cases h.1

/-- Removing a pattern leaves a sublist of the patterns. -/
theorem removePattern_sub {dpi dpi' : DPIEngine} {name : String} {removed : Bool}
    (h : (removePattern name).Yields dpi removed dpi') :
    ∀ p ∈ dpi'.patterns, p ∈ dpi.patterns := by
  cases removed with
  | false =>
      rw [eq_of_not_removed h]
      exact fun _ hp => hp
  | true =>
      rw [(removed_of_removePattern h).2]
      exact fun _ hp => List.mem_of_mem_filter hp

/-- A call of `remove_pattern` that raises has not got to its assignment. -/
theorem allOrNothing_removePattern (name : String) : (removePattern name).AllOrNothing := by
  intro dpi e
  rw [run_removePattern]
  split
  · exact fun _ => rfl
  · split
    · exact fun _ => rfl
    · exact fun he => nomatch he

/-- An accepted signature is removed again by its name, and nothing else is. -/
theorem removePattern_of_added {compile : ReCompile} {dpi dpi' : DPIEngine}
    {name rawPattern : Json} {pattern : DPIPattern}
    (h : Added compile dpi name rawPattern dpi' pattern) :
    (removePattern pattern.name).Yields dpi' true dpi := by
  have hnone : dpi.patterns.find? (fun p => p.name = pattern.name) = none := by
    rw [List.find?_eq_none]
    exact fun p hp => by simpa using h.fresh p hp
  have hold : dpi.patterns.filter (fun p => p.name ≠ pattern.name) = dpi.patterns :=
    List.filter_eq_self.mpr fun p hp => by simpa using h.fresh p hp
  have hfind : dpi'.patterns.find? (fun p => p.name = pattern.name) = some pattern := by
    rw [h.patterns_eq, List.find?_append, hnone]
    simp
  have hrest : dpi'.patterns.filter (fun p => p.name ≠ pattern.name) = dpi.patterns := by
    rw [h.patterns_eq, List.filter_append, hold]
    simp
  rw [Prog.Yields, run_removePattern, hfind]
  simp only [h.wellFormed.user, Bool.false_eq_true, if_false, hrest, and_self]

end DPIEngine

end SdnFirewall
