import Mathlib
import TwinModule.Proofs.Conversion.Stable
/-!
A module in a file of its own is the same as one with the content of the file as its body. The file is found by the
names of the modules around or by the path that is given for it.
-/
set_option autoImplicit false

namespace TwinModule

namespace Tag

/-- Of a family with one tag at most none is left when it is taken. -/
theorem take_snd {family : String} {ts : List Tag} (h : (ts.filter fun t => t.family == family).length ≤ 1) :
    (take family ts).2 = ts.filter fun t => t.family != family := by
  induction ts with
  | nil => rfl
  | cons t ts ih =>
    by_cases hf : t.family = family
    · have hnone : ∀ u ∈ ts, u.family ≠ family := by
        simpa [hf, List.filter_eq_nil_iff] using h
      have hts : (ts.filter fun t => t.family != family) = ts :=
        List.filter_eq_self.2 fun u hu => by simpa using hnone u hu
      simp [take, hf, hts]
    · have hts := ih (by simpa [hf] using h)
      simp [take, hf, hts]

end Tag

namespace Conversion

open Traced

/-- A module that is declared, and the inline one with the content of its file, which has a statement, in its place. -/
def Inlined (lib : Library) (names : List String) (s s' : Stmt) : Prop :=
  ∃ info name body path loaded,
    s = .block info (.module_ name) body ∧ isInline body = false ∧
    (info.tags.filter fun t => t.family == Tag.sourceFamily).length ≤ 1 ∧
    lib.locate (names ++ [name]) (Tag.take Tag.sourceFamily info.tags).1 = .ok path ∧
    Library.load lib.store path name = .ok loaded ∧ isInline loaded = true ∧
    s' = .block { info with tags := info.tags.filter fun t => t.family != Tag.sourceFamily } (.module_ name) loaded

theorem keepsReal_inlined (lib : Library) : KeepsReal (Inlined lib) := by
  rintro names s s' ⟨info, name, body, path, loaded, rfl, -, -, -, -, -, rfl⟩
  exact ⟨rfl, rfl⟩

variable {c : Conversion} {lib : Library} {around : Surroundings} {info : Info}

/-- A declared module has the body that the loader gives, and one source less. -/
theorem tailor_declared {load : Loader} (hf : info.tags.any (Tag.names c.variant.other) = false) {name : String}
    {body : List Stmt} (hbody : isInline body = false) :
    c.tailor load around (.block info (.module_ name) body) =
      load { around with modulePath := around.modulePath ++ [name] } name
        (Tag.take Tag.sourceFamily (c.untagged info).tags).1 info.span.line >>= fun body =>
          pure [.block { info with tags := (Tag.take Tag.sourceFamily (c.untagged info).tags).2 } (.module_ name) body] := by
  simp only [tailor, keptTags_of_own hf, hbody, untagged]
  rfl

theorem any_names_filter (v : Variant) (tags : List Tag) :
    (tags.filter fun t => t.family != Tag.sourceFamily).any (Tag.names v) = tags.any (Tag.names v) := by
  rw [List.any_filter]
  congr 1
  funext t
  cases hn : t.names v with
  | false => simp
  | true => rw [Tag.family_of_names hn]; decide

theorem tags_inlined (c : Conversion) (htags : (info.tags.filter fun t => t.family == Tag.sourceFamily).length ≤ 1) :
    (Tag.take Tag.sourceFamily (c.untagged info).tags).2 =
      (c.untagged { info with tags := info.tags.filter fun t => t.family != Tag.sourceFamily }).tags := by
  have hcomm : ∀ q : Tag → Bool, (c.untagged info).tags.filter q =
      (info.tags.filter q).filter fun t => !t.names c.variant := by
    intro q
    simp only [untagged, List.filter_filter]
    exact List.filter_congr fun t _ => Bool.and_comm ..
  have hcount : ((c.untagged info).tags.filter fun t => t.family == Tag.sourceFamily).length ≤ 1 := by
    rw [hcomm]
    exact Nat.le_trans (List.length_filter_le ..) htags
  rw [Tag.take_snd hcount, hcomm]
  rfl

/-- The inline module gives what the declared one gives: its body has been tailored with one file more around it, and
one file less deep. -/
theorem replaces_inlined (c : Conversion) (lib : Library) (p : Note → Prop) :
    c.Replaces p (c.loader (some lib)) (c.loader (some lib)) (Inlined lib) := by
  rintro around around' s s' ns out ⟨info, name, body, path, loaded, rfl, hbody, htags, hlocate, hload, hinline, rfl⟩
    haround hp h
  cases hf : info.tags.any (Tag.names c.variant.other) with
  | true =>
    have hother : (Stmt.block info (.module_ name) body).isFor c.variant.other = true := hf
    have hother' : (Stmt.block { info with tags := info.tags.filter fun t => t.family != Tag.sourceFamily }
        (.module_ name) loaded).isFor c.variant.other = true := (any_names_filter _ _).trans hf
    rw [← h.result, tailor_of_other hother, tailor_of_other hother']
    rfl
  | false =>
    have hf' : (info.tags.filter fun t => t.family != Tag.sourceFamily).any (Tag.names c.variant.other) = false :=
      (any_names_filter _ _).trans hf
    have hsource : ∀ t ∈ info.tags.filter fun t => t.family != Tag.sourceFamily, ¬ t.IsSource := by
      intro t ht hs
      have hne : ¬ t.family = Tag.sourceFamily := by simpa using (List.mem_filter.1 ht).2
      exact hne hs
    rw [tailor_declared hf hbody, take_source_untagged, tags_inlined c htags] at h
    obtain ⟨inner, hinner, rfl⟩ := bind_pure_yields_iff.1 h
    obtain ⟨path', chain, loaded', ks, hlocate', hchain, hload', hbody', rfl⟩ := fromLibrary_yields_iff.1 hinner
    rw [hlocate] at hlocate'
    cases hlocate'
    rw [hload] at hload'
    cases hload'
    obtain ⟨real, -, -, rfl⟩ := Library.enter_eq_ok hchain
    -- the declared body had the file in its chain and one level less to go, which can only make it fail
    have hwithin : Surroundings.Within { around' with modulePath := around'.modulePath ++ [name] }
        ⟨around.modulePath ++ [name], some path.text, around.chain ++ [(real, name)]⟩ :=
      ⟨congrArg (· ++ [name]) haround.modulePath, fun e he => by simp [haround.files e he]⟩
    have hdeeper : Loader.Extends p (c.fromLibrary lib lib.store.entries.length) (c.loader (some lib)) :=
      extends_fromLibrary (Library.Keeps.refl p lib) (Nat.le_succ _)
    have hresult := tailorStmts_result_of_extends hdeeper hwithin (List.forall_mem_cons.1 hp).2 hbody'
    rw [tailor_inline hf' hinline hsource, bind_result, hresult]
    rfl

/-- A conversion that fills in modules from files gives the same tree if modules in it are inline that were declared,
with the content of the files found for them. -/
theorem convert_inlined (c : Conversion) (lib : Library) (origin : Option FilePath) (t t' u : Tree)
    (h : (c.convert (some lib) origin t).result = .ok u) (hinlined : t.Alike (Inlined lib) [c.rootName] t') :
    (c.convert (some lib) origin t').result = .ok u := by
  have hsame : Loader.Extends (fun _ => True) (c.loader (some lib)) (c.loader (some lib)) :=
    extends_fromLibrary (Library.Keeps.refl _ lib) (Nat.le_refl _)
  refine convert_result_of_alike (keepsReal_inlined lib) hsame (replaces_inlined c lib _) (fun chain hchain => ?_)
    (fun _ _ => trivial) hinlined (yields_of_result h)
  obtain ⟨body, -, rfl⟩ := hinlined
  refine ⟨chain, ?_, fun e he => List.mem_map_of_mem he⟩
  rw [← hchain]
  cases t <;> rfl

def oneFragment : Library := ⟨⟨[(["f.py"], .file "pass\n".toUTF8)]⟩, ⟨.slash, []⟩⟩

def blockingOfA : Conversion := ⟨.blocking, "a", none⟩

def declaredAt : Stmt := .block ⟨Span.unset, [⟨"amphi-path", "f.py", 1⟩]⟩ (.module_ "m") []

def inlineAt : Stmt := .block ⟨Span.unset, []⟩ (.module_ "m") [.pass ⟨some 1, some 0, some 1, some 4⟩]

set_option maxRecDepth 4096 in
theorem convert_inlined_oneFragment :
    (blockingOfA.convert (some oneFragment) none (.file [declaredAt])).result =
      .ok (.file [inlineAt]) ∧
    (Tree.file [declaredAt]).Alike (Inlined oneFragment) ["a"] (.file [inlineAt]) ∧
    (blockingOfA.convert (some oneFragment) none (.file [inlineAt])).result =
      .ok (.file [inlineAt]) := by
  have hlocate : oneFragment.locate ["a", "m"] (some "f.py") = .ok ⟨.slash, ["f.py"]⟩ := by cbv
  have hload : Library.load oneFragment.store ⟨.slash, ["f.py"]⟩ "m" = .ok [.pass ⟨some 1, some 0, some 1, some 4⟩] := by
    cbv
  have henter : Library.enter oneFragment.store [] ⟨.slash, ["f.py"]⟩ "m" = .ok [(⟨.slash, ["f.py"]⟩, "m")] := by cbv
  have hmodule : (blockingOfA.loader (some oneFragment) ⟨["a", "m"], none, []⟩ "m"
      (some "f.py") none).Yields [.resolved ["a", "m"] ⟨.slash, ["f.py"]⟩] [.pass ⟨some 1, some 0, some 1, some 4⟩] :=
    fromLibrary_yields_iff.2 ⟨_, _, _, [], hlocate, henter, hload, rfl, rfl⟩
  have hbody : (blockingOfA.tailorStmts
      (blockingOfA.loader (some oneFragment)) ⟨["a"], none, []⟩ [declaredAt]).Yields
        [.resolved ["a", "m"] ⟨.slash, ["f.py"]⟩] [inlineAt] :=
    bind_bind_pure_yields_iff.2 ⟨_, [inlineAt], [], [], bind_pure_yields_iff.2 ⟨_, hmodule, rfl⟩, rfl, rfl, rfl⟩
  have hconvert : (blockingOfA.convert (some oneFragment) none (.file [declaredAt])).result =
      .ok (.file [inlineAt]) :=
    (convert_yields_iff.2 ⟨[], [inlineAt], rfl, hbody, rfl⟩).result
  have hinlined : Inlined oneFragment ["a"] declaredAt inlineAt :=
    ⟨_, "m", [], ⟨.slash, ["f.py"]⟩, _, rfl, rfl, by decide, hlocate, hload, rfl, rfl⟩
  have halike : (Tree.file [declaredAt]).Alike (Inlined oneFragment) ["a"] (.file [inlineAt]) :=
    ⟨[inlineAt], ⟨inlineAt, [], .inl hinlined, rfl, rfl⟩, rfl⟩
  exact ⟨hconvert, halike, convert_inlined blockingOfA oneFragment none _ _ _ hconvert halike⟩

end Conversion

end TwinModule
