import TwinModule.Proofs.Conversion.Converted
import TwinModule.Project
/-!
What is printed into the files of a module. Each file has its sheet, the statements that are printed into it; a sheet
of a converted module holds ordinary statements and plain comments only.
-/
set_option autoImplicit false

namespace TwinModule

namespace FileTexts

theorem mem_put {p : FilePath} {text : String} {fs : FileTexts} {f : FilePath × String} (h : f ∈ put p text fs) :
    f = (p, text) ∨ f ∈ fs := by
  induction fs with
  | nil => exact .inl (List.mem_singleton.1 h)
  | cons g fs ih =>
    obtain ⟨q, old⟩ := g
    by_cases hq : q = p
    · rw [put, if_pos hq] at h
      rcases List.mem_cons.1 h with rfl | h
      · exact .inl (by rw [hq])
      · exact .inr (List.mem_cons_of_mem _ h)
    · rw [put, if_neg hq] at h
      rcases List.mem_cons.1 h with rfl | h
      · exact .inr (List.mem_cons_self ..)
      · exact (ih h).imp_right (List.mem_cons_of_mem _)

theorem mem_update {fs gs : FileTexts} {f : FilePath × String} (h : f ∈ update fs gs) : f ∈ fs ∨ f ∈ gs := by
  induction gs generalizing fs with
  | nil => exact .inl h
  | cons g gs ih =>
    rcases ih h with h | h
    · rcases mem_put h with rfl | h
      · exact .inr (List.mem_cons_self ..)
      · exact .inl h
    · exact .inr (List.mem_cons_of_mem _ h)

end FileTexts

namespace Layout

/-- The path of a file and the statements that are printed into it. -/
abbrev Sheet := FilePath × List Stmt

mutual

/-- The sheets of a statement, if it is a module. -/
def stmtSheets (parent : FilePath) : Stmt → List Sheet
  | .block _ (.module_ name) body =>
    stmtsSheets (parent.child name) body ++ [(ownPath parent name body, ownStatements body)]
  | _ => []

def stmtsSheets (parent : FilePath) : List Stmt → List Sheet
  | [] => []
  | s :: ss => stmtSheets parent s ++ stmtsSheets parent ss

end

/-- The sheets of the module that a tree is, under its name. -/
def sheets (name : String) (t : Tree) : List Sheet :=
  stmtSheets ⟨.relative, []⟩ (.block ⟨Span.unset, []⟩ (.module_ name) t.body)

/-- The text that a sheet is printed to. -/
def sheetText (source : String) (ss : List Stmt) : Except PrintError String := do
  let code ← Print.source (.file ss)
  return header source ++ (if code.isEmpty then "" else code ++ "\n")

/-- The text of a file is the one that its sheet is printed to. -/
def IsPrinted (source : String) (sheets : List Sheet) (f : FilePath × String) : Prop :=
  ∃ sheet ∈ sheets, sheet.1 = f.1 ∧ sheetText source sheet.2 = .ok f.2

variable {source : String}

theorem IsPrinted.left {sheets : List Sheet} (more : List Sheet) {f : FilePath × String}
    (h : IsPrinted source sheets f) : IsPrinted source (sheets ++ more) f := by
  obtain ⟨sheet, hs, hf⟩ := h
  exact ⟨sheet, List.mem_append_left more hs, hf⟩

theorem IsPrinted.right {sheets : List Sheet} (more : List Sheet) {f : FilePath × String}
    (h : IsPrinted source sheets f) : IsPrinted source (more ++ sheets) f := by
  obtain ⟨sheet, hs, hf⟩ := h
  exact ⟨sheet, List.mem_append_right more hs, hf⟩

mutual

theorem isPrinted_of_stmtFiles {parent : FilePath} {files : FileTexts} :
    (s : Stmt) → stmtFiles source parent s = .ok files → ∀ f ∈ files, IsPrinted source (stmtSheets parent s) f
  | .block _ (.module_ name) body, h => by
    simp only [stmtFiles, bind_eq_ok_iff] at h
    obtain ⟨inner, hinner, text, htext, h⟩ := h
    cases h
    intro f hf
    rcases FileTexts.mem_put hf with rfl | hf
    · exact ⟨_, List.mem_append_right _ (List.mem_singleton_self _), rfl, htext⟩
    · exact (isPrinted_of_stmtsFiles body hinner f hf).left _
  | .simple .., h | .comment _, h | .block _ (.function ..) _, h | .block _ (.class_ ..) _, h
  | .block _ (.with_ ..) _, h | .branch .., h | .attempt .., h | .select .., h => by
    cases h
    simp

theorem isPrinted_of_stmtsFiles {parent : FilePath} {files : FileTexts} :
    (ss : List Stmt) → stmtsFiles source parent ss = .ok files → ∀ f ∈ files, IsPrinted source (stmtsSheets parent ss) f
  | [], h => by
    cases h
    simp
  | s :: ss, h => by
    simp only [stmtsFiles, bind_eq_ok_iff] at h
    obtain ⟨first, hfirst, rest, hrest, h⟩ := h
    cases h
    intro f hf
    rcases FileTexts.mem_update hf with hf | hf
    · exact (isPrinted_of_stmtFiles s hfirst f hf).left _
    · exact (isPrinted_of_stmtsFiles ss hrest f hf).right _

end

theorem files_eq_ok_iff {parent : FilePath} {name : String} {body : List Stmt} {texts : FileTexts} :
    files source parent name body = .ok texts ↔
      stmtFiles source parent (.block ⟨Span.unset, []⟩ (.module_ name) body) = .ok texts := by
  unfold files
  cases stmtFiles source parent (.block ⟨Span.unset, []⟩ (.module_ name) body) with
  | error e => exact ⟨nofun, nofun⟩
  | ok texts' => exact ⟨fun h => congrArg _ (Except.ok.inj h), fun h => congrArg _ (Except.ok.inj h)⟩

theorem isPrinted_of_files {name : String} {t : Tree} {texts : FileTexts}
    (h : files source ⟨.relative, []⟩ name t.body = .ok texts) : ∀ f ∈ texts, IsPrinted source (sheets name t) f :=
  isPrinted_of_stmtFiles (.block ⟨Span.unset, []⟩ (.module_ name) t.body) (files_eq_ok_iff.1 h)

/-- Ordinary statements without tags and comments that are no directives, at every depth. -/
abbrev printable : Rule := .bare Comment.IsPlain

theorem implies_printable : Rule.converted.Implies false printable where
  stmt outer role tags ho he h := by
    cases role with
    | ordinary => exact ⟨rfl, h.1 rfl⟩
    | module_ => exact absurd (ho (h.2 rfl).1) (by simp)
    | erased => exact absurd rfl he
  module_ outer tags ho h := ho (h.2 rfl).1
  comment _ h := h
  block _ _ _ _ h := h.2
  whole _ _ _ _ h _ := h.1

/-- What stands in a module is printable, modules excepted. -/
theorem printable_of_converted {s : Stmt} (hm : s.role ≠ .module_) (he : s.isErased = false)
    (h : s.Obeys .converted true) : s.Obeys printable true := by
  have hinner : s.Obeys .converted false := h.move fun hr => ⟨(h.stmt hr).1, fun e => absurd e hm⟩
  have hp : s.Obeys printable false := hinner.mono implies_printable (by simp) s he
  exact hp.move fun hr => hp.stmt hr

/-- A module's own file imports the modules in it; the rest is printed as it is. -/
theorem printable_ownStatements {ss : List Stmt} (he : ss.any Stmt.isErased = false)
    (h : stmtsObey .converted true ss) : stmtsObey printable true (ownStatements ss) := by
  induction ss with
  | nil => trivial
  | cons s ss ih =>
    rw [List.any_cons, Bool.or_eq_false_iff] at he
    have hrest := ih he.2 h.2
    by_cases hm : s.role = .module_
    · cases s with
      | block info head body =>
        cases head with
        | module_ name => exact ⟨⟨rfl, rfl⟩, hrest⟩
        | _ => cases hm
      | simple info what => cases what <;> cases hm
      | _ => cases hm
    · have hs : ownStatements (s :: ss) = s :: ownStatements ss := by
        cases s with
        | block info head body =>
          cases head with
          | module_ name => exact absurd rfl hm
          | _ => rfl
        | _ => rfl
      rw [hs]
      exact ⟨printable_of_converted hm he.1 h.1, hrest⟩

theorem printable_moduleSheets {parent : FilePath} {info : Info} {name : String} {body : List Stmt}
    (he : body.any Stmt.isErased = false) (hb : stmtsObey .converted true body)
    (ih : ∀ sheet ∈ stmtsSheets (parent.child name) body, stmtsObey printable true sheet.2) :
    ∀ sheet ∈ stmtSheets parent (.block info (.module_ name) body), stmtsObey printable true sheet.2 := by
  intro sheet hs
  rcases List.mem_append.1 hs with hs | hs
  · exact ih sheet hs
  · rw [List.mem_singleton.1 hs]
    exact printable_ownStatements he hb

mutual

theorem printable_stmtSheets {parent : FilePath} :
    (s : Stmt) → s.Obeys .converted true → ∀ sheet ∈ stmtSheets parent s, stmtsObey printable true sheet.2
  | .block _ (.module_ _) body, ⟨_, hf, hb⟩ => printable_moduleSheets hf.1 hb (printable_stmtsSheets body hb)
  | .simple .., _ | .comment _, _ | .block _ (.function ..) _, _ | .block _ (.class_ ..) _, _
  | .block _ (.with_ ..) _, _ | .branch .., _ | .attempt .., _ | .select .., _ => by simp [stmtSheets]

theorem printable_stmtsSheets {parent : FilePath} :
    (ss : List Stmt) → stmtsObey .converted true ss → ∀ sheet ∈ stmtsSheets parent ss, stmtsObey printable true sheet.2
  | [], _ => by simp [stmtsSheets]
  | s :: ss, ⟨hs, hss⟩ => by
    intro sheet h
    rcases List.mem_append.1 h with h | h
    · exact printable_stmtSheets s hs sheet h
    · exact printable_stmtsSheets ss hss sheet h

end

theorem printable_sheets {name : String} {t : Tree} (h : t.Obeys .converted) :
    ∀ sheet ∈ sheets name t, stmtsObey printable true sheet.2 := by
  have he : t.body.any Stmt.isErased = false := by
    cases t <;> exact h.1.1
  exact printable_moduleSheets he h.body (printable_stmtsSheets t.body h.body)

end Layout

end TwinModule
