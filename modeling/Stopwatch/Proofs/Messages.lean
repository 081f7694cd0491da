import Mathlib.Tactic.Common
import Stopwatch.Proofs.Values
import Stopwatch.Wire.Message

/-!
Requests and reports over the wire. A request whose texts are UTF-8 comes back field by field as it was, lists that were
never given included.
-/

namespace Stopwatch

/-- A program whose texts are UTF-8. -/
structure Program.IsUtf8 (p : Program) : Prop where
  name : p.name.IsUtf8
  executor : p.executor.IsUtf8
  command : ∀ arg ∈ p.command.getD [], arg.IsUtf8
  expectOutput : p.expectOutput.IsUtf8

/-- A request whose texts are UTF-8. -/
structure Request.IsUtf8 (r : Request) : Prop where
  id : r.id.IsUtf8
  programs : ∀ p ∈ r.programList, p.IsUtf8

namespace Wire

/-! ### Lists -/

theorem itemsOver_nil {α β : Type} {fresh : α} {item : α → Value → Option α} {f : β → Value} {g : β → α} {xs : List β}
    (h : ∀ x ∈ xs, item fresh (f x) = some (g x)) : itemsOver fresh item (xs.map f) [] = some (xs.map g) := by
  induction xs with
  | nil => rfl
  | cons x xs ih =>
    rw [List.forall_mem_cons] at h
    simp [itemsOver, h.1, ih h.2]

/-- A list that is read over nothing has its items read over fresh ones, and stays absent if it was. -/
theorem listOver_ofList {α β : Type} {fresh : α} {item : α → Value → Option α} {f : β → Value} {g : β → α}
    {list : Option (List β)} (h : ∀ x ∈ list.getD [], item fresh (f x) = some (g x)) :
    listOver fresh item none (ofList f list) = some (list.map fun xs => { items := xs.map g }) := by
  cases list with
  | none => rfl
  | some xs =>
    cases xs with
    | nil => rfl
    | cons x xs =>
      have hitems := itemsOver_nil h
      rw [Option.getD_some, List.map_cons] at hitems
      simp [ofList, listOver, hitems]

theorem portable_ofList {β : Type} {f : β → Value} {list : Option (List β)} {depth : Nat}
    (h : ∀ x ∈ list.getD [], Portable depth (f x)) : Portable (depth + 1) (ofList f list) := by
  cases list with
  | none => exact .null
  | some xs =>
    refine .list ?_
    intro v hv
    obtain ⟨x, hx, rfl⟩ := List.mem_map.mp hv
    exact h x hx

theorem portable_ofInt (n : Int64) (depth : Nat) : Portable depth (ofInt n) := .number (isLiteral_ofInt64 n)

theorem intOver_ofInt (old n : Int64) : intOver old (ofInt n) = some n := by
  simp [intOver, ofInt, Integer.read_ofInt64, Except.toOption]

/-! ### Requests -/

/-- The draft that a program is read into. -/
def draftOf (p : Program) : ProgramDraft :=
  { name := p.name, executor := p.executor, command := p.command.map fun items => { items }, expectOutput := p.expectOutput }

theorem done_draftOf (p : Program) : (draftOf p).done = p := by
  cases p with
  | mk name executor command expectOutput => cases command <;> rfl

theorem tableOver_ofProgram (p : Program) : tableOver ProgramDraft.entry {} (ofProgram p) = some (draftOf p) := by
  have hlist : listOver [] textOver none (ofList .text p.command) = some (p.command.map fun items => { items }) := by
    simpa using listOver_ofList (g := id) fun x _ => rfl
  simp [tableOver, ofProgram, entriesOver, textOver, hlist, draftOf]

theorem portable_ofProgram {p : Program} (h : p.IsUtf8) : Portable 2 (ofProgram p) := by
  refine .table ?_ ?_
  · simp only [List.forall_mem_cons]
    exact ⟨by decide, by decide, by decide, by decide, nofun⟩
  · simp only [List.forall_mem_cons]
    exact ⟨.text h.name, .text h.executor, portable_ofList fun arg harg => .text (h.command arg harg),
      .text h.expectOutput, nofun⟩

theorem portable_ofRequest {r : Request} (h : r.IsUtf8) : Portable 4 (ofRequest r) := by
  refine .table ?_ ?_
  · simp only [List.forall_mem_cons]
    exact ⟨by decide, by decide, by decide, by decide, by decide, nofun⟩
  · simp only [List.forall_mem_cons]
    exact ⟨.text h.id, portable_ofList fun p hp => portable_ofProgram (h.programs p hp), portable_ofInt _ _,
      portable_ofInt _ _, portable_ofInt _ _, nofun⟩

theorem tableOver_ofRequest (r : Request) :
    (tableOver RequestDraft.entry {} (ofRequest r)).map RequestDraft.done = some r := by
  have hlist : listOver {} (tableOver ProgramDraft.entry) none (ofList ofProgram r.programs) = _ :=
    listOver_ofList fun p _ => tableOver_ofProgram p
  have hdone : (r.programs.map fun ps => ps.map fun p => (draftOf p).done) = r.programs := by
    cases r.programs with
    | none => rfl
    | some ps => simp [done_draftOf]
  simp [tableOver, ofRequest, entriesOver, textOver, intOver_ofInt, hlist, RequestDraft.done, Function.comp_def, hdone]

end Wire

/-- The message of a request is the text of its table. -/
theorem Request.parse_encode {r : Request} (h : r.IsUtf8) : Wire.Value.parse r.encode = some (Wire.ofRequest r) :=
  Wire.parse_render (Wire.portable_ofRequest h) (by decide)

/-- A request comes back as it went out. -/
theorem Request.decode_encode {r : Request} (h : r.IsUtf8) : Request.decode r.encode = some r := by
  have hdone := Wire.tableOver_ofRequest r
  simp only [Request.decode, Request.parse_encode h, bind, Option.bind_some]
  rwa [Option.map_eq_bind] at hdone

end Stopwatch
