import DiceHost.Invoke
import DiceHost.Proofs.Store.Deferred
import DiceHost.Script.Program
import Mathlib.Data.List.TakeDrop
import Mathlib.Data.List.TakeWhile

/-! # Settling a command

A command whose script fails leaves the store as it was, whatever the script had queued. After a
script that succeeds every queued write is attempted, each by itself, and the card of the reply is
read from the store that they leave. Nothing is assumed about the script, the store, or which of
its operations are refused.
-/
namespace DiceHost
open DiceHost.Text DiceHost.Script
variable {σ κ α : Type}

/-! ## The first line of a text -/

theorem newline_notMem_firstLine (s : String) : '\n' ∉ (firstLine s).toList := by
  have htake : '\n' ∉ s.toList.takeWhile (· != '\n') := by
    intro hmem
    simpa using List.mem_takeWhile_imp hmem
  unfold firstLine
  rw [List.span_eq_takeWhile_dropWhile]
  generalize s.toList.takeWhile (· != '\n') = line at htake
  split
  · next heq =>
    obtain ⟨rfl, -⟩ := Prod.mk.inj heq
    simpa using htake
  · next heq =>
    obtain ⟨rfl, -⟩ := Prod.mk.inj heq
    split
    · next rest hreverse =>
      -- what is cut off is one character at the end of the line
      intro hmem
      refine htake (List.mem_reverse.mp ?_)
      rw [hreverse]
      exact List.mem_cons_of_mem _ (by simpa using hmem)
    · simpa using htake

/-! ## Writes of which some are refused -/

/-- The writes that are not refused, when the first one comes after so many operations. -/
def granted (refusal : Nat → Store.Operation → Option Failure) : Nat → List Write → List Write
  | _, [] => []
  | calls, write :: rest =>
    if (refusal calls (.setValue write.scope)).isNone then
      write :: granted refusal (calls + 1) rest
    else granted refusal (calls + 1) rest

/-- The store when each of some writes had its turn. -/
def Faulty.written [Store σ] (s : Faulty σ) (writes : List Write) : Faulty σ :=
  { s with
    inner := Store.written s.inner (granted s.refusal s.calls writes)
    calls := s.calls + writes.length }

/-- The answer to a read that comes next. -/
def Faulty.answer [Store σ] (s : Faulty σ) (place : Place) : Except Failure (Option Json) :=
  match s.refusal s.calls (.value place.scope) with
  | some failure => .error failure
  | none => Store.answer s.inner place

section Granted
variable {refusal : Nat → Store.Operation → Option Failure} {calls : Nat} {write : Write}

theorem granted_cons_refused {failure : Failure}
    (h : refusal calls (.setValue write.scope) = some failure) (rest : List Write) :
    granted refusal calls (write :: rest) = granted refusal (calls + 1) rest := by
  rw [granted, h]
  rfl

theorem granted_cons_granted (h : refusal calls (.setValue write.scope) = none)
    (rest : List Write) :
    granted refusal calls (write :: rest) = write :: granted refusal (calls + 1) rest := by
  rw [granted, h]
  rfl

end Granted

section Faulty
variable [Store σ]

theorem written_cons_refused {s : Faulty σ} {write : Write} {failure : Failure}
    (h : s.refusal s.calls (.setValue write.scope) = some failure) (rest : List Write) :
    s.written (write :: rest) = Faulty.written { s with calls := s.calls + 1 } rest := by
  rw [Faulty.written, granted_cons_refused h, List.length_cons, Nat.add_comm rest.length,
    ← Nat.add_assoc]
  rfl

theorem written_cons_granted {s : Faulty σ} {write : Write}
    (h : s.refusal s.calls (.setValue write.scope) = none) (rest : List Write) :
    s.written (write :: rest) =
      Faulty.written { s with
        inner := Store.written s.inner [write]
        calls := s.calls + 1 } rest := by
  rw [Faulty.written, granted_cons_granted h, List.length_cons, Nat.add_comm rest.length,
    ← Nat.add_assoc]
  rfl

variable [cells : CellStore σ κ]
include cells

/-- Every write is attempted in its turn, and one that is refused does not stop the next. -/
theorem applyWrites_faulty (writes : List Write) (s : Faulty σ) :
    (applyWrites writes : StateM (Faulty σ) Nat) s =
      ((granted s.refusal s.calls writes).length, s.written writes) := by
  induction writes generalizing s with
  | nil => rfl
  | cons write rest ih =>
    have hattempt : (Store.setValue write.scope write.id write.key write.value :
        Action (Faulty σ) Unit) s = Faulty.attempt (.setValue write.scope)
          (Store.setValue write.scope write.id write.key write.value) s := rfl
    cases hrefusal : s.refusal s.calls (.setValue write.scope) with
    | some failure =>
      have hrun : (applyWrites (write :: rest) : StateM (Faulty σ) Nat) s = _ :=
        run_bind (hattempt.trans (attempt_refused hrefusal))
      rw [hrun, granted_cons_refused hrefusal, written_cons_refused hrefusal]
      exact ih _
    | none =>
      have hgranted : Faulty.attempt (.setValue write.scope) (Store.setValue write.scope write.id
          write.key write.value : Action σ Unit) s = _ := attempt_granted hrefusal
      rw [CellStore.setValue_run] at hgranted
      have hrun : (applyWrites (write :: rest) : StateM (Faulty σ) Nat) s = _ :=
        run_bind (hattempt.trans hgranted)
      have hwritten : Store.written s.inner [write] = CellStore.put s.inner write :=
        written_append_singleton s.inner [] write
      rw [hrun, granted_cons_granted hrefusal, written_cons_granted hrefusal, hwritten]
      exact (run_bind (ih _)).trans rfl

theorem value?_faulty (s : Faulty σ) (place : Place) :
    (Store.value? place.scope place.id place.key : Action (Faulty σ) (Option Json)) s =
      (s.answer place, { s with calls := s.calls + 1 }) := by
  have hattempt : (Store.value? place.scope place.id place.key :
      Action (Faulty σ) (Option Json)) s = Faulty.attempt (.value place.scope)
        (Store.value? place.scope place.id place.key) s := rfl
  cases hrefusal : s.refusal s.calls (.value place.scope) with
  | some failure => rw [hattempt, attempt_refused hrefusal, Faulty.answer, hrefusal]
  | none =>
    rw [hattempt, attempt_granted hrefusal, Faulty.answer, hrefusal, Store.answer,
      CellStore.value?_run]

end Faulty

/-! ## Settling -/

/-- The text of a card, as a read gave it; the earlier one when the read failed. -/
def cardTextOf (earlier : Option String) : Except Failure (Option Json) → Option String
  | .ok value => value.bind Json.plainText?
  | .error _ => earlier

/-- Where the card text of the sender stands. -/
def Context.cardPlace (context : Context) : Place :=
  ⟨.group, context.group, Card.textKey context.user⟩

/-- A script that succeeded is settled: `s` is the store when it returned, and `s'` the one that
is left. -/
structure Settlement [Store σ] [CellStore σ κ] (settings : ExtensionConfig) (identity : Identity)
    (context : Context) (writes : List Write) (text reply : String) (s s' : Faulty σ) : Prop where
  /-- every write had its turn, and the card text was read after them -/
  attempts : s' = { s.written writes with calls := s.calls + writes.length + 1 }
  cells : ∀ place, CellStore.cell? s'.inner place =
    ((lastAt (granted s.refusal s.calls writes) place).map (fun write =>
      CellStore.ofValue σ write.value)).or (CellStore.cell? s.inner place)
  others : CellStore.rest s'.inner = CellStore.rest s.inner
  reply : reply = render (placeholders settings identity context
    (cardTextOf context.cardText ((s.written writes).answer context.cardPlace))) text

section Settle
variable [Store σ] [cells : CellStore σ κ] (settings : ExtensionConfig) (identity : Identity)

include cells in
theorem rereadCardText_run (context : Context) (s : Faulty σ) :
    (rereadCardText context : StateM (Faulty σ) (Option String)) s =
      (cardTextOf context.cardText (s.answer context.cardPlace),
        { s with calls := s.calls + 1 }) := by
  refine (run_bind (value?_faulty s context.cardPlace)).trans ?_
  cases s.answer context.cardPlace <;> rfl

theorem settlement_settle (context : Context) (storage : Storage) (text : String) (s : Faulty σ) :
    Settlement settings identity context storage.pending text
      (settle settings identity context storage (.ok text) s).1 s
      (settle settings identity context storage (.ok text) s).2 := by
  have hflush : storage.flush s = ((storage.discard, _), s.written storage.pending) :=
    run_bind (applyWrites_faulty storage.pending s)
  have hsettle : settle settings identity context storage (.ok text) s = _ :=
    (run_bind hflush).trans (run_bind (rereadCardText_run context _))
  rw [hsettle]
  exact ⟨rfl, cell?_written _ _, rest_written _ _, rfl⟩

end Settle

/-! ## Commands -/

/-- The text of a card, as the data of a group has it before a script runs. The data may be
refused. -/
def earlierText [Store σ] (inner : σ) (place : Place) : Option Failure → Option String
  | some _ => none
  | none => (KeyTable.find? (Context.orElse [] (Store.values place.scope place.id) inner).1
      place.key).bind Json.plainText?

/-- A command is answered: `s` is the store before it, `called` the one when its script is called,
and `s'` the one that is left. -/
structure Answered [Store σ] [CellStore σ κ] (settings : ExtensionConfig) (identity : Identity)
    (context : Context) (storage : Storage) (outcome : Except Failure String) (reply : String)
    (s called s' : Faulty σ) : Prop where
  /-- nothing is changed before the script is called -/
  unchanged : called.setting = s.setting
  earlier : ∃ calls, context.cardText =
    earlierText s.inner context.cardPlace (s.refusal calls (.values .group))
  queued : ∀ calls, storage = context.storage.after calls → storage.pending = Storage.writes calls
  failed : ∀ failure, outcome = .error failure → s'.inner = s.inner ∧
    ∃ line : String, reply = "[error] " ++ line ∧ '\n' ∉ line.toList
  succeeded : ∀ text, outcome = .ok text →
    Settlement settings identity context storage.pending text reply called s'

/-- A command is answered in this way, whatever its script does. -/
def CommandAnswered [Store σ] [CellStore σ κ] {language : Interpreter}
    (settings : ExtensionConfig) (rules : Manuals) (aliases : AliasTable)
    (scripts : Scripts language) (script : String) (identity : Identity) (tail : String)
    (s : Faulty σ) : Prop :=
  let looked := Context.build rules aliases identity tail s
  let call := scripts.call script looked.1
  let answer := invoke settings rules aliases scripts script identity tail s
  answer.1.1 = call.1 ∧
    Answered settings identity looked.1 call.2.1 call.2.2 answer.1.2 s looked.2 answer.2

section Answered
variable [Store σ] [cards : CardStore σ] [cells : CellStore σ κ]
  (settings : ExtensionConfig) (rules : Manuals) (aliases : AliasTable) (identity : Identity)
  (tail : String)

omit cells in
include cards in
theorem exists_earlierText (s : Faulty σ) :
    ∃ calls, (Context.build rules aliases identity tail s).1.cardText =
      earlierText s.inner (Context.build rules aliases identity tail s).1.cardPlace
        (s.refusal calls (.values .group)) := by
  obtain ⟨s₁, -, h₁, -, -, htext, huser, hgroup⟩ :=
    exists_views steady_setting rules aliases identity tail s
  obtain ⟨hinner, hrefusal⟩ := Prod.mk.inj h₁
  have hattempt : (Store.values .group identity.dataGroup : Action (Faulty σ) Fields) s₁ =
      Faulty.attempt (.values .group) (Store.values .group identity.dataGroup) s₁ := rfl
  refine ⟨s₁.calls, ?_⟩
  rw [htext, Context.cardPlace, huser, hgroup, ← hinner, ← hrefusal, orElse_run, hattempt]
  cases hread : s₁.refusal s₁.calls (.values .group) with
  | some failure =>
    rw [attempt_refused hread]
    rfl
  | none => rw [attempt_granted hread, earlierText, orElse_run]

theorem answered_invoke {language : Interpreter} (scripts : Scripts language) (script : String)
    (s : Faulty σ) : CommandAnswered settings rules aliases scripts script identity tail s := by
  unfold CommandAnswered
  intro looked call answer
  have hunchanged : looked.2.setting = s.setting :=
    spares_build steady_setting rules aliases identity tail s
  have hempty : looked.1.storage.pending = [] := by
    obtain ⟨s₁, s₂, -, -, hstorage, -⟩ := exists_views steady_setting rules aliases identity tail s
    rw [hstorage]
    rfl
  have hanswer : answer = ((call.1, (settle settings identity looked.1 call.2.1 call.2.2
      looked.2).1), (settle settings identity looked.1 call.2.1 call.2.2 looked.2).2) := rfl
  rw [hanswer]
  refine ⟨rfl, hunchanged, exists_earlierText rules aliases identity tail s, ?_, ?_, ?_⟩
  · intro calls hstorage
    rw [hstorage, Storage.pending_after, hempty, List.nil_append]
  · intro failure hfailure
    rw [hfailure]
    exact ⟨(Prod.mk.inj hunchanged).1, _, rfl, newline_notMem_firstLine failure.message⟩
  · intro text htext
    rw [htext]
    exact settlement_settle settings identity looked.1 call.2.1 text looked.2

end Answered

/-- Both stores answer every command in this way, for every interpreter and under every schedule of
refusals. -/
theorem invoke_answered {γ : Type} [Column γ] {language : Interpreter} (settings : ExtensionConfig)
    (rules : Manuals) (aliases : AliasTable) (scripts : Scripts language) (script : String)
    (identity : Identity) (tail : String) :
    (∀ s : Faulty Memory,
      CommandAnswered settings rules aliases scripts script identity tail s) ∧
    ∀ s : Faulty (Database γ),
      CommandAnswered settings rules aliases scripts script identity tail s :=
  ⟨answered_invoke settings rules aliases identity tail scripts script,
    answered_invoke settings rules aliases identity tail scripts script⟩

/-- A script that writes the card text of who calls and shows it, and one that fails instead. -/
def heroScripts : Scripts Program.language where
  state := []
  loaded := [
    ("fail", ⟨"", .lua, "[[\"set\",\"group\",\"$gid\",\"$card\",\"hero\"],[\"fail\",\"no\"]]"⟩),
    ("show", ⟨"", .lua,
      "[[\"set\",\"group\",\"$gid\",\"$card\",\"hero\"],[\"text\",\"I am {card}\"]]"⟩)]

/-- The reply to one of them, and the data of all groups, when some operations are refused. -/
def heroAnswer (script : String) (refused : List Store.Operation) : String × KeyTable Fields :=
  let refusal (_ : Nat) (operation : Store.Operation) : Option Failure :=
    if refused.contains operation then some (.store "disk full") else none
  let zoe : Identity := ⟨"zoe", none, "qq", some "g1", "g1"⟩
  let s : Faulty Memory := { inner := {}, refusal := refusal }
  let ((_, reply), s) := invoke {} [] [] heroScripts script zoe "" s
  (reply, s.inner.groups)

-- the card text of the reply is the one that was written, unless its write is refused
example : heroAnswer "show" [] = ("I am hero", [("g1", [("card#zoe", .str "hero")])]) ∧
    heroAnswer "show" [.setValue .group] = ("I am character card", []) := by
  decide +kernel

-- a script that fails writes nothing
example : heroAnswer "fail" [] = ("[error] no", []) := by decide +kernel

end DiceHost
