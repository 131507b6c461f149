import CustomProperties.Proofs.Repetition
import CustomProperties.Proofs.ScanLog

/-!
# The registers of a scan

A state keeps the open quote inside its mode and counts open braces by a natural number, so some
states that make no sense cannot be written down at all.  `Registers` is the same state taken apart
into five registers that know nothing of each other: the quote is a text that may be empty, and the
depth may be negative.  Each branch of the loop writes to some of them (`Registers.advance`).

Nothing but these writes keeps the registers together.  They do (`Registers.Sound`): a closing brace
counts down only inside a block, the quote is stored and cleared along with the phase, the prelude
is cleared at every brace, and the selector is stored at the brace that leaves the top level and
cleared at the one that comes back to it.

* `Registers.Sound.advance`: whatever the loop writes at one place, the registers stay sound.
* `State.registers_step`: the registers of the next state are the registers after the writes.
* `registers_visit`, `registers_walk`: so a walk is the writes at the places where it stands.
* `registers_sound`: **the registers are sound at every place of every scan and between the scans**,
  and a declaration is found in normal mode inside a block only.
-/

namespace CustomProperties.Scan

inductive Phase
  | normal
  | comment
  | string
deriving DecidableEq

/-- What the scan remembers, each thing for itself. -/
structure Registers where
  phase : Phase := .normal
  quote : Text := []
  depth : Int := 0
  prelude : Text := []
  selector : Text := []
deriving DecidableEq

namespace Registers

/-! ## Writes -/

def keepQuoted (config : Config) (r : Registers) (c : CodePoint) : Registers :=
  if r.depth = 0 ∧ config.keepStrings then { r with prelude := r.prelude ++ [c] } else r

def openBlock (r : Registers) : Registers :=
  { r with
    selector := if r.depth = 0 then r.prelude.trim else r.selector
    prelude := []
    depth := r.depth + 1 }

def closeBlock (r : Registers) : Registers :=
  if 0 < r.depth then
    { r with
      depth := r.depth - 1
      selector := if r.depth - 1 = 0 then [] else r.selector
      prelude := [] }
  else { r with prelude := [] }

/-- The registers behind the character `c`, which stands between `previous` and `next`. -/
def advance (config : Config) (r : Registers) (previous : Option CodePoint) (c : CodePoint)
    (next : Option CodePoint) : Registers :=
  match r.phase with
  | .comment =>
    if c = '*' ∧ next = some ('/' : CodePoint) then { r with phase := .normal } else r
  | .string =>
    if [c] = r.quote ∧ ¬ Quote.escaped previous then
      { r with phase := .normal, quote := [] }.keepQuoted config c
    else r.keepQuoted config c
  | .normal =>
    if c = '/' ∧ next = some ('*' : CodePoint) then { r with phase := .comment }
    else if (Quote.ofChar? c).isSome ∧ ¬ Quote.escaped previous then
      { r with phase := .string, quote := [c] }.keepQuoted config c
    else if c = '{' then r.openBlock
    else if c = '}' then r.closeBlock
    else if 0 < r.depth then r
    else { r with prelude := r.prelude ++ [c] }

/-! ## Soundness -/

structure Sound (r : Registers) : Prop where
  depth_nonneg : 0 ≤ r.depth
  quote_ne_nil_iff : r.quote ≠ [] ↔ r.phase = .string
  quote_eq : r.quote ≠ [] → ∃ q : Quote, r.quote = [q.char]
  top_of_prelude : r.prelude ≠ [] → r.depth = 0
  deep_of_selector : r.selector ≠ [] → 0 < r.depth
  trim_selector : r.selector.trim = r.selector

theorem sound_start : ({} : Registers).Sound :=
  ⟨Int.le_refl 0, by simp, by simp, by simp, by simp, rfl⟩

namespace Sound

variable {r : Registers} (h : r.Sound)
include h

theorem quote_eq_nil (hPhase : r.phase ≠ .string) : r.quote = [] := by
  by_contra hne
  exact hPhase (h.quote_ne_nil_iff.mp hne)

theorem write {phase : Phase} {quote : Text} (hIff : quote ≠ [] ↔ phase = .string)
    (hQuote : quote ≠ [] → ∃ q : Quote, quote = [q.char]) :
    { r with phase := phase, quote := quote }.Sound :=
  ⟨h.depth_nonneg, hIff, hQuote, h.top_of_prelude, h.deep_of_selector, h.trim_selector⟩

theorem append (hTop : r.depth = 0) (c : CodePoint) :
    { r with prelude := r.prelude ++ [c] }.Sound :=
  ⟨h.depth_nonneg, h.quote_ne_nil_iff, h.quote_eq, fun _ => hTop, h.deep_of_selector,
    h.trim_selector⟩

theorem keepQuoted (config : Config) (c : CodePoint) : (r.keepQuoted config c).Sound := by
  rw [Registers.keepQuoted]
  split
  · rename_i hTop
    exact h.append hTop.1 c
  · exact h

theorem openBlock : r.openBlock.Sound := by
  have hDepth := h.depth_nonneg
  have hTrim : r.openBlock.selector.trim = r.openBlock.selector := by
    rw [Registers.openBlock]
    dsimp only
    split
    · exact Text.trim_of_ends (Text.head_trim _) (Text.last_trim _)
    · exact h.trim_selector
  exact ⟨Int.le_add_one hDepth, h.quote_ne_nil_iff, h.quote_eq, fun hne => absurd rfl hne,
    fun _ => Int.lt_add_one_iff.mpr hDepth, hTrim⟩

theorem closeBlock : r.closeBlock.Sound := by
  rw [Registers.closeBlock]
  split
  · rename_i hDeep
    by_cases hLast : r.depth - 1 = 0
    · rw [if_pos hLast]
      exact ⟨Int.le_of_eq hLast.symm, h.quote_ne_nil_iff, h.quote_eq, fun hne => absurd rfl hne,
        fun hne => absurd rfl hne, rfl⟩
    · rw [if_neg hLast]
      refine ⟨?_, h.quote_ne_nil_iff, h.quote_eq, fun hne => absurd rfl hne, fun _ => ?_,
        h.trim_selector⟩
      · show 0 ≤ r.depth - 1
        omega
      · show 0 < r.depth - 1
        omega
  · exact ⟨h.depth_nonneg, h.quote_ne_nil_iff, h.quote_eq, fun hne => absurd rfl hne,
      h.deep_of_selector, h.trim_selector⟩

/-- **Whatever is written at one place, the registers stay sound.** -/
theorem advance (config : Config) (previous : Option CodePoint) (c : CodePoint)
    (next : Option CodePoint) : (r.advance config previous c next).Sound := by
  have hDepth := h.depth_nonneg
  have hClear : { r with phase := .normal, quote := [] }.Sound := h.write (by simp) (by simp)
  rw [Registers.advance]
  split
  · rename_i hPhase
    have hQuote : r.quote = [] := h.quote_eq_nil (by simp [hPhase])
    split
    · exact h.write (by simp [hQuote]) h.quote_eq
    · exact h
  · split
    · exact hClear.keepQuoted config c
    · exact h.keepQuoted config c
  · rename_i hPhase
    have hQuote : r.quote = [] := h.quote_eq_nil (by simp [hPhase])
    split
    · exact h.write (by simp [hQuote]) h.quote_eq
    split
    · rename_i hOpens
      obtain ⟨q, hq⟩ := Option.isSome_iff_exists.mp hOpens.1
      obtain rfl := Quote.eq_char_of_ofChar? hq
      have hStore : { r with phase := .string, quote := [q.char] }.Sound :=
        h.write (by simp) fun _ => ⟨q, rfl⟩
      exact hStore.keepQuoted config q.char
    split
    · exact h.openBlock
    split
    · exact h.closeBlock
    split
    · exact h
    · exact h.append (by omega) c

end Sound

end Registers

/-! ## The registers of a state -/

def Mode.phase : Mode → Phase
  | normal => .normal
  | comment => .comment
  | string _ => .string

def Mode.quote : Mode → Text
  | string q => [q.char]
  | _ => []

def State.registers (s : State) : Registers :=
  { phase := s.mode.phase
    quote := s.mode.quote
    depth := s.depth
    prelude := s.prelude
    selector := s.selector }

theorem State.registers_keepQuoted (config : Config) (s : State) (c : CodePoint) :
    (s.keepQuoted config c).registers = s.registers.keepQuoted config c := by
  have hTop : s.registers.depth = 0 ↔ s.depth = 0 := Int.natCast_eq_zero
  rw [State.keepQuoted, Registers.keepQuoted]
  simp only [hTop]
  split
  · rfl
  · rfl

theorem State.registers_openBlock (s : State) :
    s.openBlock.registers = s.registers.openBlock := by
  have hTop : s.registers.depth = 0 ↔ s.depth = 0 := Int.natCast_eq_zero
  simp only [Registers.openBlock, hTop]
  rfl

theorem State.registers_closeBlock (s : State) :
    s.closeBlock.registers = s.registers.closeBlock := by
  obtain ⟨m, depth, prelude, selector⟩ := s
  cases depth with
  | zero => rfl
  | succ n =>
    have hDeep : 0 < (State.mk m (n + 1) prelude selector).registers.depth :=
      Int.natCast_pos.mpr n.succ_pos
    have hLast : ((n + 1 : Nat) : Int) - 1 = n := by omega
    rw [Registers.closeBlock, if_pos hDeep]
    simp only [State.closeBlock, State.registers, Nat.add_sub_cancel, Nat.add_eq_right, hLast,
      Int.natCast_eq_zero]

theorem State.state_candidate (config : Config) (s : State) (offset : Nat) (t : Text) :
    (s.candidate config offset t).state = s := by
  rw [State.candidate]
  split
  · rfl
  · rfl

/-- **A step of the scan is the writes to its registers.** -/
theorem State.registers_step (config : Config) (s : State) (offset : Nat)
    (previous : Option CodePoint) (c : CodePoint) (rest : Text) :
    (s.step config offset previous c rest).state.registers
      = s.registers.advance config previous c rest.head? := by
  have hTop : ¬ 0 < s.registers.depth ↔ s.depth = 0 := by
    show ¬ 0 < (s.depth : Int) ↔ _
    omega
  cases hm : s.mode with
  | comment =>
    have hPhase : s.registers.phase = .comment := congrArg Mode.phase hm
    simp only [State.step, hm, Registers.advance, hPhase]
    split
    · simp [State.registers, hm, Mode.phase, Mode.quote]
    · rfl
  | string q =>
    -- The mode holds the quote that closes the string, and the register its character.
    have hPhase : s.registers.phase = .string := congrArg Mode.phase hm
    have hQuote : s.registers.quote = [q.char] := congrArg Mode.quote hm
    simp only [State.step, hm, Registers.advance, hPhase, hQuote, List.cons.injEq, and_true]
    split
    · rw [State.registers_keepQuoted]
      rfl
    · rw [State.registers_keepQuoted]
  | normal =>
    have hPhase : s.registers.phase = .normal := congrArg Mode.phase hm
    simp only [State.step, hm, Registers.advance, hPhase]
    by_cases hComment : c = ('/' : CodePoint) ∧ rest.head? = some ('*' : CodePoint)
    · rw [if_pos hComment, if_pos hComment]
      simp [State.registers, hm, Mode.phase, Mode.quote]
    rw [if_neg hComment, if_neg hComment]
    by_cases hQuote : (Quote.ofChar? c).isSome ∧ ¬ Quote.escaped previous
    · obtain ⟨q, hq⟩ := Option.isSome_iff_exists.mp hQuote.1
      obtain rfl := Quote.eq_char_of_ofChar? hq
      rw [if_pos hQuote, if_neg hQuote.2, hq]
      simp only [State.registers_keepQuoted]
      rfl
    have hNone : (if Quote.escaped previous then none else Quote.ofChar? c) = none := by
      split
      · rfl
      · rename_i hEscaped
        exact Option.not_isSome_iff_eq_none.mp fun hSome => hQuote ⟨hSome, hEscaped⟩
    rw [if_neg hQuote, hNone]
    by_cases hOpen : c = ('{' : CodePoint)
    · simp only [if_pos hOpen, State.registers_openBlock]
    by_cases hClose : c = ('}' : CodePoint)
    · simp only [if_neg hOpen, if_pos hClose, State.registers_closeBlock]
    simp only [if_neg hOpen, if_neg hClose]
    by_cases hd : s.depth = 0
    · rw [if_pos hd, if_neg (hTop.mpr hd)]
      simp only [State.registers, hm, Mode.phase]
    · -- Inside a block nothing is written, whatever becomes of a candidate.
      rw [if_neg hd, if_pos (by_contra fun hNot => hd (hTop.mp hNot))]
      split
      · rw [State.state_candidate]
      · rfl

/-! ## Whole walks -/

def Registers.pass (config : Config) (r : Registers) (v : Visit) : Registers :=
  r.advance config v.previous v.char v.rest.head?

theorem Registers.Sound.foldl_pass {r : Registers} (h : r.Sound) (config : Config)
    (places : List Visit) : (places.foldl (Registers.pass config) r).Sound := by
  induction places generalizing r with
  | nil => exact h
  | cons v places ih => exact ih (h.advance config v.previous v.char v.rest.head?)

/-- **A walk leaves the registers that the writes at its places leave.** -/
theorem registers_walk (config : Config) (skip : Nat) (s : State) (offset : Nat)
    (previous : Option CodePoint) (t : Text) :
    (walk config skip s offset previous t).state.registers
      = (visits config skip s offset previous t).foldl (Registers.pass config) s.registers := by
  induction t generalizing skip s offset previous with
  | nil => cases skip <;> rfl
  | cons c rest ih =>
    cases skip with
    | succ skip => exact ih skip s (offset + 1) (some c)
    | zero =>
      have hStep := s.registers_step config offset previous c rest
      rw [visits, List.foldl_cons, Registers.pass, ← hStep, walk_cons]
      exact ih _ _ (offset + 1) (some c)

/-- **At each place the registers are what the writes at the places before it made of them.** -/
theorem registers_visit {config : Config} {skip : Nat} {s : State} {offset : Nat}
    {previous : Option CodePoint} {t : Text} {before after : List Visit} {v : Visit}
    (h : visits config skip s offset previous t = before ++ v :: after) :
    v.state.registers = before.foldl (Registers.pass config) s.registers := by
  induction t generalizing skip s offset previous before with
  | nil =>
    rw [visits] at h
    exact absurd h.symm (by simp)
  | cons c rest ih =>
    cases skip with
    | succ skip => exact ih h
    | zero =>
      rw [visits] at h
      cases before with
      | nil =>
        obtain ⟨rfl, -⟩ := List.cons.inj h
        rfl
      | cons u before =>
        obtain ⟨rfl, hLater⟩ := List.cons.inj h
        rw [List.foldl_cons, Registers.pass, ← s.registers_step config offset previous c rest]
        exact ih hLater

/-! ## Scans one after the other -/

theorem stateAfter_succ (config : Config) (source : Text) (times : Nat) (s : State) :
    stateAfter config source (times + 1) s
      = (walkFrom config (stateAfter config source times s) source).state := by
  induction times generalizing s with
  | zero => rfl
  | succ times ih => exact ih (walkFrom config s source).state

theorem getElem?_scanRepeatedly (config : Config) (source : Text) (times : Nat) (s : State) :
    (scanRepeatedly config source (times + 1) s)[times]?
      = some (walkFrom config (stateAfter config source times s) source).declarations := by
  induction times generalizing s with
  | zero => rfl
  | succ times ih => exact ih (walkFrom config s source).state

theorem sound_stateAfter (config : Config) (source : Text) (times : Nat) :
    (stateAfter config source times {}).registers.Sound := by
  induction times with
  | zero => exact Registers.sound_start
  | succ times ih =>
    rw [stateAfter_succ, walkFrom, registers_walk]
    exact ih.foldl_pass config _

def Visit.declaration? (config : Config) (v : Visit) : Option Declaration :=
  (v.step config).event.bind Event.declaration?

theorem Visit.inBlock_of_declaration? {config : Config} {v : Visit}
    (h : (v.declaration? config).isSome = true) : v.state.InBlock := by
  cases hEvent : (v.step config).event with
  | none =>
    rw [declaration?, hEvent] at h
    cases h
  | some e => exact ((v.exists_event_iff config e.offset).mp ⟨e, hEvent, rfl⟩).2.inBlock

theorem declarations_walkFrom (config : Config) (s : State) (source : Text) :
    (walkFrom config s source).declarations
      = (visits config 0 s 0 none source).filterMap (Visit.declaration? config) := by
  rw [walkFrom, walk_eq_visits]
  exact List.filterMap_filterMap

/-- **The registers are sound at every place of every scan and between the scans.**  They are made
by the writes at the places where the scan stands, from the registers that the scan before it left,
and the scan finds its declarations at places in normal mode inside a block. -/
theorem registers_sound (config : Config) (source : Text) (times : Nat) :
    let start := stateAfter config source times {}
    let places := visits config 0 start 0 none source
    start.registers.Sound ∧
      (∀ before v after, places = before ++ v :: after →
        v.state.registers = before.foldl (Registers.pass config) start.registers ∧
          v.state.registers.Sound ∧
          ((v.declaration? config).isSome = true →
            v.state.registers.phase = .normal ∧ 0 < v.state.registers.depth)) ∧
      (stateAfter config source (times + 1) {}).registers
        = places.foldl (Registers.pass config) start.registers ∧
      (scanRepeatedly config source (times + 1) {})[times]?
        = some (places.filterMap (Visit.declaration? config)) := by
  intro start places
  have hStart : start.registers.Sound := sound_stateAfter config source times
  refine ⟨hStart, ?_, ?_, ?_⟩
  · intro before v after hPlaces
    have hRegisters := registers_visit hPlaces
    refine ⟨hRegisters, ?_, fun hFound => ?_⟩
    · rw [hRegisters]
      exact hStart.foldl_pass config before
    · have hBlock := Visit.inBlock_of_declaration? hFound
      exact ⟨congrArg Mode.phase hBlock.normal, Int.natCast_pos.mpr hBlock.deep⟩
  · rw [stateAfter_succ]
    exact registers_walk config 0 start 0 none source
  · rw [getElem?_scanRepeatedly, declarations_walkFrom]

/-- The first scan ends in the string that it opened, outside every block; the second one closes the
string, finds a declaration and ends inside a block. -/
theorem registers_sound_openString :
    let config : Config := { keepStrings := true }
    let source : Text := "'x\x7b--a:1;"
    let r₁ : Registers := { phase := .string, quote := "'", prelude := source }
    let r₂ : Registers := { depth := 1, selector := source ++ "'x" }
    (stateAfter config source 1 {}).registers = r₁ ∧ r₁.Sound ∧
      (stateAfter config source 2 {}).registers = r₂ ∧ r₂.Sound ∧
      ∃ v ∈ visits config 0 (stateAfter config source 1 {}) 0 none source,
        (v.declaration? config).isSome = true ∧ v.state.registers.Sound ∧
          v.state.registers.phase = .normal ∧ 0 < v.state.registers.depth := by
  intro config source r₁ r₂
  have h₁ : (stateAfter config source 1 {}).registers = r₁ := by decide +kernel
  have h₂ : (stateAfter config source 2 {}).registers = r₂ := by decide +kernel
  have hFound : ∃ v ∈ visits config 0 (stateAfter config source 1 {}) 0 none source,
      (v.declaration? config).isSome = true := by decide +kernel
  obtain ⟨hSound₁, hPlaces, -⟩ := registers_sound config source 1
  obtain ⟨hSound₂, -⟩ := registers_sound config source 2
  rw [h₁] at hSound₁
  rw [h₂] at hSound₂
  refine ⟨h₁, hSound₁, h₂, hSound₂, ?_⟩
  obtain ⟨v, hv, hDeclared⟩ := hFound
  obtain ⟨before, after, hSplit⟩ := List.append_of_mem hv
  obtain ⟨-, hSound, hBlock⟩ := hPlaces before v after hSplit
  exact ⟨v, hv, hDeclared, hSound, hBlock hDeclared⟩

end CustomProperties.Scan
