import TwinModule.Proofs.Files.Write
/-!
All that making directories changes: places where nothing was, to which their paths lead.
-/
set_option autoImplicit false

namespace TwinModule

/-- Another path or the same, cut after some of its names. -/
def FilePath.IsAbove (q p : FilePath) : Prop := q.root = p.root ∧ q.names <+: p.names

namespace Store

variable {s made : Store} {p : FilePath} {l k here : Location} {names : List String} {links : Nat}

/-- A walk to a directory goes on into a directory in it. -/
theorem Leads.concat {name : String} (h : s.Leads links here names l) (hdirectory : s.find? l = some .directory)
    (hname : IsStep name) (hthere : s.find? (l ++ [name]) = some .directory) :
    s.Leads links here (names ++ [name]) (l ++ [name]) := by
  induction h with
  | arrive links here => exact .inside hname hthere (.arrive ..)
  | up _ ih => exact .up (ih hdirectory hthere)
  | inside hstep hinner _ ih => exact .inside hstep hinner (ih hdirectory hthere)
  | last _ hend =>
    rcases hend with hnone | ⟨bytes, hfile⟩
    · rw [hnone] at hdirectory
      cases hdirectory
    · rw [hfile] at hdirectory
      cases hdirectory
  | along hstep hlink _ ih =>
    rw [List.cons_append]
    refine .along hstep hlink ?_
    rw [← List.append_assoc]
    exact ih hdirectory hthere

/-- A new directory is where its path leads to. -/
theorem add_directory_eq_ok (h : s.add p .directory = .ok made) :
    ∃ l, s.find? l = none ∧ made = s.set l .directory ∧ made.locate p = .ok l := by
  unfold add at h
  split at h
  · cases h
  · rename_i name hname
    cases hlook : s.look p.parent with
    | error problem =>
      rw [hlook] at h
      cases h
    | ok found =>
      obtain ⟨outer, e⟩ := found
      rw [hlook] at h
      simp only [bind, Except.bind] at h
      cases e with
      | file bytes | link target => cases h
      | directory =>
        simp only at h
        split at h
        · cases h
        · rename_i hup
          split at h
          · cases h
          · rename_i hlong
            split at h
            · cases h
            · rename_i hnew
              cases h
              have hnone : s.find? (outer ++ [name]) = none := by simpa using hnew
              obtain ⟨hparent, houter⟩ := look_eq_ok_iff.1 hlook
              have hgrows := grows_set_directory hnone
              have hthere : (s.set (outer ++ [name]) .directory).find? (outer ++ [name]) = some .directory := by
                rw [find?_set (ne_nil_of_missing hnone), if_pos rfl]
              have hleads := (hgrows.leads (locate_eq_ok_iff.1 hparent)).concat (hgrows.directory _ houter)
                ⟨hup, Nat.not_lt.1 hlong⟩ hthere
              have hnames : p.parent.names ++ [name] = p.names := by
                obtain ⟨above, habove⟩ := List.getLast?_eq_some_iff.1 hname
                rw [FilePath.parent, habove, List.dropLast_concat]
              exact ⟨_, hnone, rfl, locate_eq_ok_iff.2 (hnames ▸ hleads)⟩

/-- A place is as before, or was empty and is a directory now that a path of some kind leads to. -/
def IsKeptOrMade (s made : Store) (kind : FilePath → Prop) (l : Location) : Prop :=
  made.find? l = s.find? l ∨
    (s.find? l = none ∧ made.find? l = some .directory ∧ ∃ q, kind q ∧ made.locate q = .ok l)

theorem IsKeptOrMade.mono {kind kind' : FilePath → Prop} (h : IsKeptOrMade s made kind l)
    (hkind : ∀ q, kind q → kind' q) : IsKeptOrMade s made kind' l := by
  rcases h with h | ⟨hnone, hdirectory, q, hq, hlocate⟩
  · exact .inl h
  · exact .inr ⟨hnone, hdirectory, q, hkind q hq, hlocate⟩

/-- What has been made stays where it is while the store grows. -/
theorem IsKeptOrMade.trans {after : Store} {kind : FilePath → Prop} (h : IsKeptOrMade s made kind l)
    (h' : IsKeptOrMade made after kind l) (hgrows : made.Grows after) : IsKeptOrMade s after kind l := by
  rcases h with h | ⟨hnone, hdirectory, q, hq, hlocate⟩
  · rcases h' with h' | ⟨hnone', made⟩
    · exact .inl (h'.trans h)
    · exact .inr ⟨h ▸ hnone', made⟩
  · exact .inr ⟨hnone, hgrows.directory l hdirectory, q, hq, hgrows.locate hlocate⟩

theorem isKeptOrMade_add (h : s.add p .directory = .ok made) (l : Location) :
    IsKeptOrMade s made (·.IsAbove p) l := by
  obtain ⟨k, hk, rfl, hlocate⟩ := add_directory_eq_ok h
  rw [IsKeptOrMade, find?_set (ne_nil_of_missing hk)]
  by_cases hl : l = k
  · subst hl
    exact .inr ⟨hk, if_pos rfl, p, ⟨rfl, List.prefix_refl _⟩, hlocate⟩
  · exact .inl (if_neg hl)

theorem grows_add (h : s.add p .directory = .ok made) : s.Grows made := by
  obtain ⟨l, hl, rfl⟩ := exists_of_add h
  exact grows_set_directory hl

theorem isKeptOrMade_makeDirectories (s : Store) (root : PathRoot) (names : List String) (l : Location) :
    IsKeptOrMade s (s.makeDirectories root names).1 (·.IsAbove ⟨root, names.reverse⟩) l := by
  induction names with
  | nil => exact .inl rfl
  | cons name above ih =>
    have hmore : ∀ q : FilePath, q.IsAbove ⟨root, above.reverse⟩ → q.IsAbove ⟨root, (name :: above).reverse⟩ := by
      rintro q ⟨hroot, hnames⟩
      exact ⟨hroot, hnames.trans (by simp)⟩
    rw [makeDirectories]
    split
    · rename_i made hmade
      exact isKeptOrMade_add hmade l
    · split
      · rename_i made fault hmade
        rw [hmade] at ih
        exact ih.mono hmore
      · rename_i made hmade
        rw [hmade] at ih
        split
        · rename_i after hafter
          exact (ih.mono hmore).trans (isKeptOrMade_add hafter l) (grows_add hafter)
        · exact ih.mono hmore
    · exact .inl rfl

theorem isKeptOrMade_makeDirectory (s : Store) (p : FilePath) (l : Location) :
    IsKeptOrMade s (s.makeDirectory p).1 (·.IsAbove p) l := by
  have hmade := isKeptOrMade_makeDirectories s p.root p.names.reverse l
  rwa [List.reverse_reverse] at hmade

end Store

end TwinModule
