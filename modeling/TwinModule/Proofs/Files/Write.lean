import TwinModule.Proofs.Files.Grow
/-!
What setting entries, making directories and writing files do to a store.
-/
set_option autoImplicit false

namespace TwinModule.Store

variable {s s' : Store} {p : FilePath} {l k : Location} {e e' : Entry} {es : List (Location × Entry)}

theorem mem_of_lookup (h : es.lookup l = some e) : (l, e) ∈ es := by
  obtain ⟨before, after, rfl, -⟩ := List.lookup_eq_some_iff.1 h
  exact List.mem_append_right before (List.mem_cons_self ..)

theorem setEntry_setEntry (l : Location) (e e' : Entry) (es : List (Location × Entry)) :
    setEntry l e (setEntry l e' es) = setEntry l e es := by
  induction es with
  | nil => simp [setEntry]
  | cons x es ih =>
    obtain ⟨x, old⟩ := x
    by_cases hx : x = l <;> simp [setEntry, hx, ih]

theorem setEntry_of_lookup (h : es.lookup l = some e) : setEntry l e es = es := by
  induction es with
  | nil => cases h
  | cons x es ih =>
    obtain ⟨x, old⟩ := x
    by_cases hx : x = l
    · subst hx
      have hold : old = e := by simpa using h
      simp [setEntry, hold]
    · have hne : (l == x) = false := beq_eq_false_iff_ne.2 (Ne.symm hx)
      rw [List.lookup_cons, hne] at h
      simp [setEntry, hx, ih h]

/-- Entries are set in any order, if one of the places is taken already. -/
theorem setEntry_comm (hlk : l ≠ k) (h : (es.lookup l).isSome) :
    setEntry k e' (setEntry l e es) = setEntry l e (setEntry k e' es) := by
  induction es with
  | nil => cases h
  | cons x es ih =>
    obtain ⟨x, old⟩ := x
    by_cases hx : x = l
    · subst hx
      simp [setEntry, hlk]
    · have hne : (l == x) = false := beq_eq_false_iff_ne.2 (Ne.symm hx)
      rw [List.lookup_cons, hne] at h
      by_cases hk : x = k
      · subst hk
        simp [setEntry, hx]
      · simp [setEntry, hx, hk, ih h]

theorem length_setEntry (l : Location) (e : Entry) (es : List (Location × Entry)) :
    (setEntry l e es).length = if es.lookup l = none then es.length + 1 else es.length := by
  induction es with
  | nil => rfl
  | cons x es ih =>
    obtain ⟨x, old⟩ := x
    by_cases hx : x = l
    · simp [setEntry, hx]
    · have hne : (l == x) = false := beq_eq_false_iff_ne.2 (Ne.symm hx)
      rw [List.lookup_cons, hne]
      simp only [setEntry, hx, if_false, List.length_cons, ih]
      split <;> rfl

theorem find?_of_ne_nil (h : l ≠ []) : s.find? l = s.entries.lookup l := by
  cases l with
  | nil => exact absurd rfl h
  | cons x xs => rfl

theorem ne_nil_of_missing (h : s.find? l = none) : l ≠ [] := by
  rintro rfl
  cases h

theorem ne_nil_of_file {bytes : ByteArray} (h : s.find? l = some (.file bytes)) : l ≠ [] := by
  rintro rfl
  cases h

theorem set_set (s : Store) (l : Location) (e e' : Entry) : (s.set l e').set l e = s.set l e :=
  congrArg Store.mk (setEntry_setEntry l e e' s.entries)

theorem set_of_find? (hl : l ≠ []) (h : s.find? l = some e) : s.set l e = s :=
  congrArg Store.mk (setEntry_of_lookup ((find?_of_ne_nil hl).symm.trans h))

theorem set_comm (hl : l ≠ []) (hlk : l ≠ k) (h : (s.find? l).isSome) :
    (s.set l e).set k e' = (s.set k e').set l e :=
  congrArg Store.mk (setEntry_comm hlk (find?_of_ne_nil hl ▸ h))

theorem size_set_le (s : Store) (l : Location) (e : Entry) : s.entries.length ≤ (s.set l e).entries.length := by
  rw [set, length_setEntry]
  split <;> omega

theorem size_set_of_missing (h : s.find? l = none) (e : Entry) :
    s.entries.length < (s.set l e).entries.length := by
  rw [set, length_setEntry, ← find?_of_ne_nil (ne_nil_of_missing h), if_pos h]
  exact Nat.lt_succ_self _

theorem grows_set_directory (h : s.find? l = none) : s.Grows (s.set l .directory) := by
  have hl := ne_nil_of_missing h
  refine ⟨fun k hk => ?_, fun k bytes hk => ⟨bytes, ?_⟩, fun k target => ?_, size_set_le ..⟩
  · rw [find?_set hl]
    split <;> trivial
  · rw [find?_set hl, if_neg, hk]
    rintro rfl
    simp [hk] at h
  · rw [find?_set hl]
    split
    · rename_i hkl
      simp [hkl, h]
    · exact Iff.rfl

theorem grows_set_file (h : s.find? l = none ∨ ∃ old, s.find? l = some (.file old)) (bytes : ByteArray) :
    s.Grows (s.set l (.file bytes)) := by
  have hl : l ≠ [] := h.elim ne_nil_of_missing fun ⟨_, h⟩ => ne_nil_of_file h
  refine ⟨fun k hk => ?_, fun k old hk => ?_, fun k target => ?_, size_set_le ..⟩
  · rw [find?_set hl, if_neg, hk]
    rintro rfl
    simp [hk] at h
  · rw [find?_set hl]
    split
    · exact ⟨bytes, rfl⟩
    · exact ⟨old, hk⟩
  · rw [find?_set hl]
    split
    · rename_i hkl
      subst hkl
      rcases h with h | ⟨old, h⟩ <;> simp [h]
    · exact Iff.rfl

/-- Writing to a file can be taken back. -/
theorem grows_of_set_file {old : ByteArray} (h : s.find? l = some (.file old)) (bytes : ByteArray) :
    (s.set l (.file bytes)).Grows s := by
  have hl := ne_nil_of_file h
  have hset : (s.set l (.file bytes)).find? l = some (.file bytes) := by rw [find?_set hl, if_pos rfl]
  have hgrows := grows_set_file (.inr ⟨bytes, hset⟩) old
  rwa [set_set, set_of_find? hl h] at hgrows

/-- Bytes are written to a file that is there or to a place where nothing is yet. -/
theorem write_eq_ok_iff {bytes : ByteArray} : s.write p bytes = .ok s' ↔
    ∃ l, s.locate p = .ok l ∧ (s.find? l = none ∨ ∃ old, s.find? l = some (.file old)) ∧
      s' = s.set l (.file bytes) := by
  unfold write
  cases hl : s.locate p with
  | error problem => simp [bind, Except.bind]
  | ok l =>
    have hplace := (locate_eq_ok_iff.1 hl).place (open_nil s)
    simp only [bind, Except.bind, Except.ok.injEq]
    rcases hplace with h | h | ⟨old, h⟩
    · simp [h, throw, throwThe, MonadExceptOf.throw]
    · simp [h, pure, Except.pure, eq_comm]
    · simp [h, pure, Except.pure, eq_comm]

theorem exists_of_add (h : s.add p e = .ok s') : ∃ l, s.find? l = none ∧ s' = s.set l e := by
  unfold add at h
  split at h
  · cases h
  · rename_i name hname
    cases hlook : s.look p.parent with
    | error problem =>
      rw [hlook] at h
      cases h
    | ok found =>
      obtain ⟨l, outer⟩ := found
      rw [hlook] at h
      simp only [bind, Except.bind] at h
      cases outer with
      | directory =>
        simp only at h
        split at h
        · cases h
        · split at h
          · cases h
          · split at h
            · cases h
            · rename_i hnew
              cases h
              exact ⟨l ++ [name], by simpa using hnew, rfl⟩
      | file bytes | link target => cases h

/-- Making directories adds some where nothing was, one after the other. -/
theorem makeDirectories_steps {R : Store → Store → Prop} (hrefl : ∀ s, R s s)
    (htrans : ∀ s t u, R s t → R t u → R s u) (hstep : ∀ s l, s.find? l = none → R s (s.set l .directory))
    (s : Store) (root : PathRoot) (names : List String) : R s (s.makeDirectories root names).1 := by
  induction names with
  | nil => exact hrefl s
  | cons name above ih =>
    rw [makeDirectories]
    split
    · rename_i made hmade
      obtain ⟨l, hl, rfl⟩ := exists_of_add hmade
      exact hstep s l hl
    · split
      · rename_i made fault hmade
        rw [hmade] at ih
        exact ih
      · rename_i made hmade
        rw [hmade] at ih
        split
        · rename_i t ht
          obtain ⟨l, hl, rfl⟩ := exists_of_add ht
          exact htrans s made _ ih (hstep made l hl)
        · exact ih
    · exact hrefl s

theorem grows_makeDirectory (s : Store) (p : FilePath) : s.Grows (s.makeDirectory p).1 :=
  makeDirectories_steps Grows.refl (fun _ _ _ h h' => h.trans h') (fun _ _ h => grows_set_directory h) s p.root _

theorem find?_makeDirectory (p : FilePath) (h : s.find? l = some e) : (s.makeDirectory p).1.find? l = some e := by
  refine makeDirectories_steps (R := fun s s' => s.find? l = some e → s'.find? l = some e) (fun _ h => h)
    (fun _ _ _ h h' hs => h' (h hs)) (fun s k hk hl => ?_) s p.root _ h
  rw [find?_set (ne_nil_of_missing hk), if_neg, hl]
  rintro rfl
  rw [hk] at hl
  cases hl

theorem makeDirectory_eq_or_size (s : Store) (p : FilePath) :
    (s.makeDirectory p).1 = s ∨ s.entries.length < (s.makeDirectory p).1.entries.length := by
  refine makeDirectories_steps (R := fun s s' => s' = s ∨ s.entries.length < s'.entries.length) (fun _ => .inl rfl)
    (fun s t u h h' => ?_) (fun s l hl => .inr (size_set_of_missing hl _)) s p.root _
  rcases h with rfl | h
  · exact h'
  · rcases h' with rfl | h'
    · exact .inr h
    · exact .inr (Nat.lt_trans h h')

theorem isDirectory_parent (hp : p.names ≠ []) (h : s.locate p = .ok l) : s.isDirectory p.parent = .ok true := by
  have hnames : p.names = p.parent.names ++ [p.names.getLast hp] := (List.dropLast_concat_getLast hp).symm
  have hleads := locate_eq_ok_iff.1 h
  rw [hnames] at hleads
  obtain ⟨fewer, between, hparent, hdirectory, -⟩ := hleads.split (open_nil s) (List.cons_ne_nil _ _)
  exact isDirectory_eq_true_iff.2 ⟨between, locate_eq_ok_iff.2 hparent, hdirectory⟩

theorem isDirectory_parent_of_isFile (h : s.isFile p = .ok true) : s.isDirectory p.parent = .ok true := by
  obtain ⟨l, bytes, hl, hfile⟩ := isFile_eq_true_iff.1 h
  refine isDirectory_parent (fun hp => ?_) hl
  have hleads := locate_eq_ok_iff.1 hl
  rw [hp] at hleads
  cases hleads
  cases hfile

theorem add_of_look (h : s.look p = .ok (l, e')) : s.add p e = .error .exists_ := by
  obtain ⟨hl, he⟩ := look_eq_ok_iff.1 h
  rcases List.eq_nil_or_concat p.names with hp | ⟨above, name, hp⟩
  · unfold add
    rw [hp]
    rfl
  · rw [List.concat_eq_append] at hp
    have hleads := locate_eq_ok_iff.1 hl
    rw [hp] at hleads
    obtain ⟨fewer, outer, houter, hdirectory, hlast⟩ := hleads.split (open_nil s) (List.cons_ne_nil _ _)
    have hparent : s.look p.parent = .ok (outer, .directory) := by
      refine look_eq_ok_iff.2 ⟨locate_eq_ok_iff.2 ?_, hdirectory⟩
      rwa [FilePath.parent, hp, List.dropLast_concat]
    have hname : p.names.getLast? = some name := by rw [hp, List.getLast?_concat]
    unfold add
    simp only [hname, hparent, bind, Except.bind]
    cases hlast with
    | up => rfl
    | inside hstep hthere =>
      rw [if_neg hstep.1, if_neg (Nat.not_lt.2 hstep.2), if_pos (by simp [hthere])]
      rfl
    | last hstep =>
      rw [if_neg hstep.1, if_neg (Nat.not_lt.2 hstep.2), if_pos (by simp [he])]
      rfl
    | along hstep hthere =>
      rw [if_neg hstep.1, if_neg (Nat.not_lt.2 hstep.2), if_pos (by simp [hthere])]
      rfl

theorem makeDirectory_of_isDirectory (h : s.isDirectory p = .ok true) : s.makeDirectory p = (s, .ok ()) := by
  unfold makeDirectory
  cases hp : p.names.reverse with
  | nil => rfl
  | cons name above =>
    have hself : (⟨p.root, (name :: above).reverse⟩ : FilePath) = p := by rw [← hp, List.reverse_reverse]
    obtain ⟨l, hl, hdirectory⟩ := isDirectory_eq_true_iff.1 h
    simp only [makeDirectories, hself, add_of_look (look_eq_ok_iff.2 ⟨hl, hdirectory⟩), unlessDirectory, h]

/-- The store with entries set one after the other. -/
def setAll (s : Store) (ws : List (Location × Entry)) : Store := ws.foldl (fun s w => s.set w.1 w.2) s

theorem setAll_cons (s : Store) (w : Location × Entry) (ws : List (Location × Entry)) :
    s.setAll (w :: ws) = (s.set w.1 w.2).setAll ws := rfl

variable {ws : List (Location × Entry)}

theorem find?_setAll (hws : ∀ w ∈ ws, w.1 ≠ []) (l : Location) :
    (s.setAll ws).find? l = (ws.reverse.lookup l).or (s.find? l) := by
  induction ws generalizing s with
  | nil => rfl
  | cons w ws ih =>
    obtain ⟨k, e⟩ := w
    obtain ⟨hk, hws⟩ := List.forall_mem_cons.1 hws
    rw [setAll_cons, ih hws, find?_set hk, List.reverse_cons, List.lookup_append, Option.or_assoc]
    congr 1
    by_cases hlk : l = k
    · simp [hlk]
    · simp [hlk, List.lookup_cons, beq_eq_false_iff_ne.2 hlk]

/-- What is set before something else is set in the same place does not matter. -/
theorem setAll_set (hl : l ≠ []) (hthere : (s.find? l).isSome) (hmem : l ∈ ws.map Prod.fst)
    (hws : ∀ w ∈ ws, w.1 ≠ []) : (s.set l e).setAll ws = s.setAll ws := by
  induction ws generalizing s with
  | nil => cases hmem
  | cons w ws ih =>
    obtain ⟨k, e'⟩ := w
    obtain ⟨hk, hws⟩ := List.forall_mem_cons.1 hws
    simp only [setAll_cons]
    by_cases hlk : l = k
    · subst hlk
      rw [set_set]
    · have hrest : l ∈ ws.map Prod.fst := (List.mem_cons.1 hmem).resolve_left hlk
      rw [set_comm hl hlk hthere]
      refine ih ?_ hrest hws
      rw [find?_set hk, if_neg hlk]
      exact hthere

/-- Setting what is there in the end changes nothing. -/
theorem setAll_eq_self (hws : ∀ w ∈ ws, w.1 ≠ [])
    (h : ∀ l e, ws.reverse.lookup l = some e → s.find? l = some e) : s.setAll ws = s := by
  induction ws with
  | nil => rfl
  | cons w ws ih =>
    obtain ⟨k, e⟩ := w
    obtain ⟨hk, hws⟩ := List.forall_mem_cons.1 hws
    have hrest : ∀ l e, ws.reverse.lookup l = some e → s.find? l = some e := fun l e' hl =>
      h l e' (by rw [List.reverse_cons, List.lookup_append, hl, Option.some_or])
    rw [setAll_cons]
    -- the first entry is either set again later or the last one in its place, and so what is there
    cases hlast : ws.reverse.lookup k with
    | some e' =>
      have hmem : k ∈ ws.map Prod.fst :=
        List.mem_map.2 ⟨(k, e'), List.mem_reverse.1 (mem_of_lookup hlast), rfl⟩
      rw [setAll_set hk (by simp [hrest k e' hlast]) hmem hws, ih hws hrest]
    | none =>
      have hhere : s.find? k = some e := h k e (by simp [List.lookup_append, hlast])
      rw [set_of_find? hk hhere, ih hws hrest]

end TwinModule.Store
