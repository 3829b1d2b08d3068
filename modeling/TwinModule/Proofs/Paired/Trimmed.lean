import TwinModule.Paired.Session
import TwinModule.Proofs.Conversion.Influence
import TwinModule.Proofs.Generation.Run
/-!
The two copies of a test, each by itself. A conversion does not look at the name of a function or at its decorators, so
that a copy is the same whether it is trimmed before it is converted or after, and neither copy depends on what is done
for the other one.
-/
set_option autoImplicit false

namespace TwinModule

namespace Stmt

def isFunction : Stmt → Bool
  | block _ (.function ..) _ => true
  | _ => false

end Stmt

namespace Paired

/-- A tree in which the functions have other names and other decorators. -/
def redefine (name : String → String) (decorators : List Decorator → List Decorator) (t : Tree) : Tree :=
  t.withBody (t.body.map (mapFunction name decorators))

variable {name name' : String → String} {decorators decorators' : List Decorator → List Decorator}

theorem mapFunction_mapFunction (s : Stmt) :
    mapFunction name decorators (mapFunction name' decorators' s) =
      mapFunction (name ∘ name') (decorators ∘ decorators') s := by
  cases s with
  | block info head body => cases head <;> rfl
  | _ => rfl

theorem mapFunction_of_not_isReal {s : Stmt} (h : s.isReal = false) : mapFunction name decorators s = s := by
  cases s with
  | comment c => rfl
  | _ => cases h

theorem isReal_mapFunction (s : Stmt) : (mapFunction name decorators s).isReal = s.isReal := by
  unfold mapFunction
  split <;> rfl

theorem isErased_mapFunction (s : Stmt) : (mapFunction name decorators s).isErased = s.isErased := by
  unfold mapFunction
  split <;> rfl

theorem tidy_mapFunction (s : Stmt) : (mapFunction name decorators s).tidy = mapFunction name decorators s.tidy := by
  cases s with
  | block info head body => cases head <;> rfl
  | _ => rfl

theorem tidyStmts_mapFunction (ss : List Stmt) :
    tidyStmts (ss.map (mapFunction name decorators)) = (tidyStmts ss).map (mapFunction name decorators) := by
  rw [tidyStmts_eq, tidyStmts_eq, List.filter_map, List.map_map, List.map_map]
  have hkept : ((fun s : Stmt => !s.isErased) ∘ mapFunction name decorators) = fun s => !s.isErased :=
    funext fun s => congrArg not (isErased_mapFunction s)
  rw [hkept]
  exact List.map_congr_left fun s _ => tidy_mapFunction s

/-- New decorators of a function get their blocking form with the rest of it. -/
theorem blocking_mapFunction (ds : List Decorator) (s : Stmt) :
    (mapFunction id (fun _ => ds) s).blocking = mapFunction id (fun _ => ds.map Blocking.decorator) s.blocking := by
  cases s with
  | block info head body => cases head <;> rfl
  | _ => rfl

section

variable {c : Conversion} {load : Loader} {around : Surroundings}

theorem tailor_mapFunction {s : Stmt} (hs : s.isReal = true → s.isFunction = true) :
    (c.tailor load around (mapFunction name decorators s)).result =
      (c.tailor load around s).result.map (List.map (mapFunction name decorators)) := by
  cases hreal : s.isReal with
  | false =>
    cases s with
    | comment k => simp only [mapFunction, Conversion.tailor_comment]; rfl
    | _ => cases hreal
  | true =>
    have hfunction := hs hreal
    unfold Stmt.isFunction at hfunction
    split at hfunction
    · rename_i info isAsync n ps ds returns typeComment body
      cases htags : info.tags.any (Tag.names c.variant.other) with
      | true =>
        have hother (head : BlockHead) : (Stmt.block info head body).isFor c.variant.other = true := htags
        rw [mapFunction, Conversion.tailor_of_other (hother _), Conversion.tailor_of_other (hother _)]
        rfl
      | false =>
        rw [mapFunction, Conversion.tailor_block htags rfl, Conversion.tailor_block htags rfl, Traced.bind_result,
          Traced.bind_result]
        cases (c.tailorStmts load around body).result <;> rfl
    · cases hfunction

theorem tailorStmts_mapFunction {ss : List Stmt} (hss : ∀ s ∈ ss, s.isReal = true → s.isFunction = true) :
    (c.tailorStmts load around (ss.map (mapFunction name decorators))).result =
      (c.tailorStmts load around ss).result.map (List.map (mapFunction name decorators)) := by
  induction ss with
  | nil => rfl
  | cons s ss ih =>
    rw [List.forall_mem_cons] at hss
    simp only [List.map_cons, Conversion.tailorStmts, Traced.bind_result, tailor_mapFunction hss.1, ih hss.2]
    cases (c.tailor load around s).result with
    | error e => rfl
    | ok first =>
      cases (c.tailorStmts load around ss).result with
      | error e => rfl
      | ok rest => exact congrArg Except.ok List.map_append.symm

theorem convert_file (c : Conversion) (body : List Stmt) : (c.convert none none (.file body)).result =
    ((c.tailorStmts Conversion.noLibrary ⟨[c.rootName], none, []⟩ body).result.map fun out =>
      Tree.file (tidyStmts out)).mapError (Failure.inFile none) := by
  simp only [Conversion.convert, Traced.mapFailure, Conversion.firstChain, Traced.bind_result, Tree.finalize_withBody,
    Tree.body]
  cases (c.tailorStmts (c.loader none) ⟨[c.rootName], none, []⟩ body).result <;> rfl

/-- Functions that are given names and decorators before a conversion could as well be given them after it. -/
theorem convert_mapFunction {body : List Stmt} (hbody : ∀ s ∈ body, s.isReal = true → s.isFunction = true) :
    (c.convert none none (.file (body.map (mapFunction name decorators)))).result =
      (c.convert none none (.file body)).result.map (redefine name decorators) := by
  rw [convert_file, convert_file, tailorStmts_mapFunction hbody]
  cases (c.tailorStmts Conversion.noLibrary ⟨[c.rootName], none, []⟩ body).result with
  | error e => rfl
  | ok out => exact congrArg (fun ss => Except.ok (Tree.file ss)) (tidyStmts_mapFunction out)

end

theorem onlyStatement_eq_ok_iff {body : List Stmt} {s : Stmt} :
    onlyStatement body = .ok s ↔ body.filter Stmt.isReal = [s] := by
  unfold onlyStatement
  generalize body.filter Stmt.isReal = real
  rcases real with _ | ⟨s', _ | ⟨_, _⟩⟩ <;> simp

/-- Where there is one function, each way to change functions amounts to a change of this one. -/
theorem map_mapFunction_of_only {body inner : List Stmt} {info : Info} {isAsync : Bool} {n : String} {params : Params}
    {ds : List Decorator} {returns : Option Expr} {typeComment : Option String}
    (h : onlyStatement body = .ok (.block info (.function isAsync n params ds returns typeComment) inner)) :
    body.map (mapFunction name decorators) = body.map (mapFunction name fun _ => decorators ds) := by
  refine List.map_congr_left fun s hs => ?_
  cases hreal : s.isReal with
  | false => rw [mapFunction_of_not_isReal hreal, mapFunction_of_not_isReal hreal]
  | true =>
    have hmem : s ∈ body.filter Stmt.isReal := List.mem_filter.2 ⟨hs, hreal⟩
    rw [onlyStatement_eq_ok_iff.1 h, List.mem_singleton] at hmem
    rw [hmem]
    rfl

/-- Names and decorators do not matter to whether there is only a function. -/
theorem onlyDecorators_mapFunction (body : List Stmt) :
    onlyDecorators (body.map (mapFunction name decorators)) = (onlyDecorators body).map decorators := by
  have hreal : (body.map (mapFunction name decorators)).filter Stmt.isReal =
      (body.filter Stmt.isReal).map (mapFunction name decorators) := by
    rw [List.filter_map]
    exact congrArg _ (List.filter_congr fun s _ => isReal_mapFunction s)
  unfold onlyDecorators onlyStatement
  rw [hreal]
  cases body.filter Stmt.isReal with
  | nil => rfl
  | cons s rest =>
    cases rest with
    | nil =>
      cases s with
      | block info head body => cases head <;> rfl
      | _ => rfl
    | cons s' rest => rfl

def Scope.conversion (scope : Scope) (v : Variant) : Conversion := ⟨v, scope.rootName, scope.package⟩

/-- The dotted name that an expression is or calls ends in a mark for tests that run in an event loop. -/
theorem isAsyncMark_iff (e : Expr) :
    isAsyncMark e = true ↔ ∃ names last, dottedName e = some (names ++ ["mark", last]) ∧ last ∈ asyncMarks := by
  unfold isAsyncMark dottedName
  generalize memberNames _ = found
  constructor
  · intro h
    split at h
    · rename_i last rest
      exact ⟨rest.reverse, last, by simp, List.contains_iff_mem.1 h⟩
    · cases h
  · rintro ⟨names, last, hfound, hlast⟩
    cases found with
    | none => cases hfound
    | some found =>
      have hreverse : found.reverse = names ++ ["mark", last] := Option.some.inj hfound
      obtain rfl : found = last :: "mark" :: names.reverse := by
        rw [← List.reverse_reverse found, hreverse]
        simp
      exact List.contains_iff_mem.2 hlast

/-- The first decorator that is the adapter is the one that is taken for it. -/
theorem ownPlace_eq_some {isAdapter : Expr → Bool} {ds : List Decorator} {k : Nat} {d : Decorator} (hk : ds[k]? = some d)
    (hd : isAdapter d.expr = true) (hfirst : ∀ j < k, ∀ e, ds[j]? = some e → isAdapter e.expr = false) :
    ownPlace isAdapter ds = some k := by
  obtain ⟨hlt, rfl⟩ := List.getElem?_eq_some_iff.1 hk
  refine List.findIdx?_eq_some_iff_getElem.2 ⟨hlt, hd, fun j hj => ?_⟩
  rw [hfirst j hj _ (List.getElem?_eq_getElem (Nat.lt_trans hj hlt))]
  exact Bool.false_ne_true

/-- The last step for the blocking copy, for a function that was given its decorators before. -/
theorem finished_redefine (name : String) (ds : List Decorator) (ss : List Stmt) :
    (do
      let body := (redefine id (fun _ => ds) (.file ss)).blocking.body
      let _ ← onlyDecorators body
      return .file (body.map (mapFunction (fun _ => name ++ blockingSuffix) id)) : Except Failure Tree) = do
    let t : Tree := .file ss
    let _ ← onlyDecorators t.blocking.body
    return redefine (fun _ => name ++ blockingSuffix) (fun _ => ds.map Blocking.decorator) t.blocking := by
  have hbody : (redefine id (fun _ => ds) (.file ss)).blocking.body =
      (blockingStmts ss).map (mapFunction id fun _ => ds.map Blocking.decorator) := by
    rw [blockingStmts_eq_map, List.map_map]
    show blockingStmts (ss.map _) = _
    rw [blockingStmts_eq_map, List.map_map]
    exact List.map_congr_left fun s _ => blocking_mapFunction ds s
  have honly : (Tree.file ss).blocking.body = blockingStmts ss := rfl
  simp only [hbody, honly, onlyDecorators_mapFunction, List.map_map]
  cases onlyDecorators (blockingStmts ss) with
  | error e => rfl
  | ok _ => exact congrArg (fun b => Except.ok (Tree.file b)) (List.map_congr_left fun s _ => mapFunction_mapFunction s)

section

variable {body inner : List Stmt} {info : Info} {isAsync : Bool} {n : String} {params : Params} {ds : List Decorator}
  {returns : Option Expr} {typeComment : Option String}
  (hbody : onlyStatement body = .ok (.block info (.function isAsync n params ds returns typeComment) inner))
include hbody

theorem isFunction_of_only : ∀ s ∈ body, s.isReal = true → s.isFunction = true := by
  intro s hs hreal
  have hmem : s ∈ body.filter Stmt.isReal := List.mem_filter.2 ⟨hs, hreal⟩
  rw [onlyStatement_eq_ok_iff.1 hbody, List.mem_singleton] at hmem
  rw [hmem]
  rfl

/-- The asynchronous copy is what the function is converted to, with some of its decorators. -/
theorem asynchronousCopy_eq (scope : Scope) (own : Option Nat) :
    asynchronousCopy scope own body = ((scope.conversion .asynchronous).convert none none (.file body)).result.map
      (redefine id fun _ => underAdapter own ds) := by
  rw [asynchronousCopy, map_mapFunction_of_only hbody]
  exact convert_mapFunction (isFunction_of_only hbody)

/-- The blocking copy is the blocking form of what the function is converted to, with some of its decorators in their
blocking form and another name. -/
theorem blockingCopy_eq (scope : Scope) (own : Option Nat) (name : String) :
    blockingCopy scope own name body = do
      let t ← ((scope.conversion .blocking).convert none none (.file body)).result
      let _ ← onlyDecorators t.blocking.body
      return redefine (fun _ => name ++ blockingSuffix) (fun _ => (keptByBlocking own ds).map Blocking.decorator)
        t.blocking := by
  rw [blockingCopy, map_mapFunction_of_only hbody]
  show ((scope.conversion .blocking).convert none none (.file _)).result >>= _ = _
  rw [convert_mapFunction (isFunction_of_only hbody), convert_file]
  cases ((scope.conversion .blocking).tailorStmts Conversion.noLibrary _ body).result with
  | error e => rfl
  | ok out => exact finished_redefine ..

/-- Each copy is made from the function as it was read, in whatever way the other one is trimmed and converted. -/
theorem copies_eq {isAdapter : Expr → Bool} {k : Nat} (hown : ownPlace isAdapter ds = some k) (scope : Scope)
    (name : String) :
    copies scope isAdapter name body = do
      let a ← ((scope.conversion .asynchronous).convert none none (.file body)).result
      let b ← ((scope.conversion .blocking).convert none none (.file body)).result
      let _ ← onlyDecorators b.blocking.body
      return ⟨redefine (fun _ => name ++ blockingSuffix)
        (fun _ => ((ds.eraseIdx k).filter fun d => !isAsyncMark d.expr).map Blocking.decorator) b.blocking,
        redefine id (fun _ => ds.drop (k + 1)) a⟩ := by
  have hdecorators : onlyDecorators body = .ok ds := by
    rw [onlyDecorators, hbody]
    rfl
  rw [copies, hdecorators]
  show (do
    let a ← asynchronousCopy scope (ownPlace isAdapter ds) body
    let b ← blockingCopy scope (ownPlace isAdapter ds) name body
    return ⟨b, a⟩ : Except Failure Copies) = _
  rw [hown, asynchronousCopy_eq hbody, blockingCopy_eq hbody]
  cases ((scope.conversion .asynchronous).convert none none (.file body)).result with
  | error e => rfl
  | ok a =>
    cases ((scope.conversion .blocking).convert none none (.file body)).result with
    | error e => rfl
    | ok b =>
      show (onlyDecorators b.blocking.body >>= _) >>= _ = onlyDecorators b.blocking.body >>= _
      cases onlyDecorators b.blocking.body <;> rfl

end

namespace Run

variable {α β γ : Type}

theorem get_bind (f : Session → Run α) (s : Session) :
    ((get : Run Session) >>= f).run.run s = (f s).run.run s := rfl

/-- Computations without effects can be taken apart. -/
theorem ofExcept_bind (r : Except Failure α) (g : α → Except Failure β) (f : β → Run γ) :
    ((ExceptT.mk (pure (r >>= g)) : Run β) >>= f) =
      (ExceptT.mk (pure r) : Run α) >>= fun a => (ExceptT.mk (pure (g a)) : Run β) >>= f := by
  cases r <;> rfl

theorem ofExcept_pure (a : α) (f : α → Run β) :
    ((ExceptT.mk (pure (pure a : Except Failure α)) : Run α) >>= f) = f a := rfl

end Run

/-- To adapt a function is to define its blocking copy and then its asynchronous copy. -/
theorem adaptUpTo_eq {s : Session} {value : Value} {name : String} {body : List Stmt}
    (hsource : sourceOfValue s value = .ok (name, body)) (depth : Nat) (scope : Scope) :
    (adaptUpTo (depth + 1) scope value).run.run s = (do
      let made ← ExceptT.mk (pure (copies scope (fun e => (s.resolve e).any Value.isAdapter) name body))
      let _ ← add (adaptUpTo depth) name made.blocking
      add (adaptUpTo depth) name made.asynchronous : Run Value).run.run s := by
  rw [adaptUpTo, Run.get_bind, hsource]
  rfl

/-- The two definitions that a test is adapted to. The asynchronous copy is what the function is converted to for that
variant, with the decorators that are under the adapter; the blocking copy is the blocking form of what the same function
is converted to for the other variant, with another name and with the blocking forms of all its decorators but the
adapter and the marks for tests that run in an event loop. -/
theorem adapt_trims (depth : Nat) (scope : Scope) (s : Session) (value : Value) (name : String) (body : List Stmt)
    (info : Info) (isAsync : Bool) (n : String) (params : Params) (ds : List Decorator) (returns : Option Expr)
    (typeComment : Option String) (inner : List Stmt) (k : Nat) (d : Decorator)
    (hsource : sourceOfValue s value = .ok (name, body))
    (hbody : onlyStatement body = .ok (.block info (.function isAsync n params ds returns typeComment) inner))
    (hk : ds[k]? = some d) (hd : (s.resolve d.expr).any Value.isAdapter = true)
    (hfirst : ∀ j < k, ∀ e, ds[j]? = some e → (s.resolve e.expr).any Value.isAdapter = false) :
    (adaptUpTo (depth + 1) scope value).run.run s = (do
      let a ← ExceptT.mk (pure ((scope.conversion .asynchronous).convert none none (.file body)).result)
      let b ← ExceptT.mk (pure ((scope.conversion .blocking).convert none none (.file body)).result)
      let _ ← ExceptT.mk (pure (onlyDecorators b.blocking.body))
      let _ ← add (adaptUpTo depth) name (redefine (fun _ => name ++ blockingSuffix)
        (fun _ => ((ds.eraseIdx k).filter fun d => !isAsyncMark d.expr).map Blocking.decorator) b.blocking)
      add (adaptUpTo depth) name (redefine id (fun _ => ds.drop (k + 1)) a) : Run Value).run.run s ∧
    ∀ e, isAsyncMark e = true ↔
      ∃ names last, dottedName e = some (names ++ ["mark", last]) ∧ last ∈ ["asyncio", "anyio", "trio"] := by
  refine ⟨?_, isAsyncMark_iff⟩
  have hown : ownPlace (fun e => (s.resolve e).any Value.isAdapter) ds = some k := ownPlace_eq_some hk hd hfirst
  rw [adaptUpTo_eq hsource, copies_eq hbody hown]
  simp only [Run.ofExcept_bind, Run.ofExcept_pure]

/-- A test with a mark under the adapter. -/
def markedText : String := "@test\n@mark.trio\ndef f(): x\n"

def markedDecorators : List Decorator := [⟨1, .name "test" .load⟩, ⟨2, .member (.name "mark" .load) "trio" .load⟩]

def markedInner : List Stmt := [.simple ⟨⟨some 3, some 9, some 3, some 10⟩, []⟩ (.expr (.name "x" .load))]

def markedHead : BlockHead := .function false "f" (.mk [] [] none [] [] none []) markedDecorators none none

def marked : Stmt := .block ⟨⟨some 3, some 0, some 3, some 10⟩, []⟩ markedHead markedInner

def markedSession : Session := ⟨"a.py", fileLines markedText.toList, true, [("test", .adapter)], none, []⟩

def markedFunction : Function := ⟨"f", "f", 1, false, none⟩

set_option maxRecDepth 4096 in
theorem readSource_markedText (file : String) : readSource file markedText = .ok [marked] := by
  have hparse : Grammar.parse markedText.toList = some [marked] := by decide +kernel
  have hscan : Comments.scan markedText.toList = .ok [] := Project.eq_ok_of_toOption (by decide +kernel)
  exact readSource_of_readAnnotated (readAnnotated_of_parse file (by decide) hparse hscan rfl) rfl

theorem adapt_trims_marked :
    sourceOfValue markedSession (.function markedFunction) = .ok ("f", [marked]) ∧
    (adaptUpTo 1 .standard (.function markedFunction)).run.run markedSession = (do
      let a ← ExceptT.mk (pure ((Scope.standard.conversion .asynchronous).convert none none (.file [marked])).result)
      let b ← ExceptT.mk (pure ((Scope.standard.conversion .blocking).convert none none (.file [marked])).result)
      let _ ← ExceptT.mk (pure (onlyDecorators b.blocking.body))
      let _ ← add (adaptUpTo 0) "f" (redefine (fun _ => "f_blocking_version") (fun _ => []) b.blocking)
      add (adaptUpTo 0) "f" (redefine id (fun _ => markedDecorators.drop 1) a) : Run Value).run.run markedSession := by
  have htext : String.ofList (blockText markedSession.lines 1) = markedText := by decide +kernel
  have hsource : sourceOfValue markedSession (.function markedFunction) = .ok ("f", [marked]) := by
    have hread : sourceOf markedSession markedFunction = .ok [marked] :=
      (congrArg (readSource "a.py") htext).trans (readSource_markedText _)
    rw [sourceOfValue, hread]
    rfl
  exact ⟨hsource, (adapt_trims 0 .standard markedSession _ "f" [marked] _ _ _ _ markedDecorators _ _ _ 0 _ hsource rfl
    rfl (by decide) (by simp)).1⟩

end Paired

end TwinModule
