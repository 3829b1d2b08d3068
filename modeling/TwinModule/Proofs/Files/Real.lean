import TwinModule.Proofs.Files.Grow
/-!
Real paths. A walk goes over the links on its way one after the other, while the real path of a link within a link is
found before that of the outer one. Where both come to an end, they lead to the same place.
-/
set_option autoImplicit false

namespace TwinModule.Store

variable {s : Store} {p : FilePath} {here l between : Location} {names : List String} {n m links : Nat}

/-- Where the names from a place on lead and over how many links, what a link stands for being found by itself. -/
inductive Solves (s : Store) : Location → List String → Nat → Location → Prop where
  | arrive (here : Location) : Solves s here [] 0 here
  | up {here l : Location} {rest : List String} {n : Nat} :
      Solves s here.dropLast rest n l → Solves s here (".." :: rest) n l
  | plain {here l : Location} {name : String} {rest : List String} {n : Nat} : name ≠ ".." →
      (∀ target, s.find? (here ++ [name]) ≠ some (.link target)) → Solves s (here ++ [name]) rest n l →
      Solves s here (name :: rest) n l
  | along {here between l : Location} {name : String} {rest : List String} {target : FilePath} {m n : Nat} :
      name ≠ ".." → s.find? (here ++ [name]) = some (.link target) →
      Solves s (if target.isAbsolute then [] else here) target.names m between → Solves s between rest n l →
      Solves s here (name :: rest) (m + n + 1) l

theorem Solves.unique {k : Location} (h : s.Solves here names n l) (h' : s.Solves here names m k) :
    n = m ∧ l = k := by
  induction h generalizing m k with
  | arrive here =>
    cases h'
    exact ⟨rfl, rfl⟩
  | up _ ih =>
    cases h' with
    | up hrest => exact ih hrest
    | plain hname => exact absurd rfl hname
    | along hname => exact absurd rfl hname
  | plain hname hnot _ ih =>
    cases h' with
    | up => exact absurd rfl hname
    | plain _ _ hrest => exact ih hrest
    | along _ hlink => exact absurd hlink (hnot _)
  | along hname hlink _ _ ihtarget ihrest =>
    cases h' with
    | up => exact absurd rfl hname
    | plain _ hnot => exact absurd hlink (hnot _)
    | along _ hlink' htarget hrest =>
      obtain ⟨⟩ : Entry.link _ = Entry.link _ := Option.some.inj (hlink.symm.trans hlink')
      obtain ⟨rfl, rfl⟩ := ihtarget htarget
      obtain ⟨rfl, rfl⟩ := ihrest hrest
      exact ⟨rfl, rfl⟩

theorem Solves.split {xs ys : List String} (h : s.Solves here (xs ++ ys) n l) :
    ∃ m k between, s.Solves here xs m between ∧ s.Solves between ys k l ∧ n = m + k := by
  generalize hnames : xs ++ ys = names at h
  induction h generalizing xs with
  | arrive here =>
    obtain ⟨rfl, rfl⟩ := List.append_eq_nil_iff.1 hnames
    exact ⟨0, 0, here, .arrive here, .arrive here, rfl⟩
  | @up here l rest n hrest ih =>
    rcases List.append_eq_cons_iff.1 hnames with ⟨rfl, rfl⟩ | ⟨xs, rfl, hxs⟩
    · exact ⟨0, n, here, .arrive here, .up hrest, (Nat.zero_add n).symm⟩
    · obtain ⟨m, k, between, hfirst, hsecond, rfl⟩ := ih hxs.symm
      exact ⟨m, k, between, .up hfirst, hsecond, rfl⟩
  | @plain here l name rest n hname hnot hrest ih =>
    rcases List.append_eq_cons_iff.1 hnames with ⟨rfl, rfl⟩ | ⟨xs, rfl, hxs⟩
    · exact ⟨0, n, here, .arrive here, .plain hname hnot hrest, (Nat.zero_add n).symm⟩
    · obtain ⟨m, k, between, hfirst, hsecond, rfl⟩ := ih hxs.symm
      exact ⟨m, k, between, .plain hname hnot hfirst, hsecond, rfl⟩
  | @along here inner l name rest target m n hname hlink htarget hrest _ ih =>
    rcases List.append_eq_cons_iff.1 hnames with ⟨rfl, rfl⟩ | ⟨xs, rfl, hxs⟩
    · exact ⟨0, m + n + 1, here, .arrive here, .along hname hlink htarget hrest, (Nat.zero_add _).symm⟩
    · obtain ⟨i, k, between, hfirst, hsecond, rfl⟩ := ih hxs.symm
      exact ⟨m + i + 1, k, between, .along hname hlink htarget hfirst, hsecond, by omega⟩

/-- A walk leads where its links lead one by one, and over no more of them. -/
theorem Leads.solves (h : s.Leads links here names l) : ∃ n ≤ links, s.Solves here names n l := by
  induction h with
  | arrive links here => exact ⟨0, Nat.zero_le _, .arrive here⟩
  | up _ ih =>
    obtain ⟨n, hn, hrest⟩ := ih
    exact ⟨n, hn, .up hrest⟩
  | inside hname hdirectory _ ih =>
    obtain ⟨n, hn, hrest⟩ := ih
    exact ⟨n, hn, .plain hname.1 (by simp [hdirectory]) hrest⟩
  | last hname hend =>
    refine ⟨0, Nat.zero_le _, .plain hname.1 ?_ (.arrive _)⟩
    rcases hend with hnone | ⟨bytes, hfile⟩
    · simp [hnone]
    · simp [hfile]
  | along hname hlink _ ih =>
    obtain ⟨n, hn, hall⟩ := ih
    obtain ⟨m, k, between, htarget, hrest, rfl⟩ := hall.split
    exact ⟨m + k + 1, by omega, .along hname.1 hlink htarget hrest⟩

/-- The links that are being followed take at least so many links more to find. -/
def Above (s : Store) (entered : List Location) (n : Nat) : Prop :=
  ∀ link ∈ entered, ∀ target m l, s.find? link = some (.link target) →
    s.Solves (if target.isAbsolute then [] else link.dropLast) target.names m l → n ≤ m

theorem Above.mono {entered : List Location} (h : s.Above entered n) (hm : m ≤ n) : s.Above entered m :=
  fun link hlink target k l htarget hsolves => Nat.le_trans hm (h link hlink target k l htarget hsolves)

theorem Solves.follow (h : s.Solves here names n l) {entered : List Location} (habove : s.Above entered n)
    (links : Nat) (ways : List Way) :
    s.follow (links + n) entered here (names.map Way.name ++ ways) = s.follow links entered l ways := by
  induction h generalizing entered links ways with
  | arrive here => rfl
  | up _ ih =>
    rw [List.map_cons, List.cons_append, Store.follow, if_pos rfl]
    exact ih habove links ways
  | plain hname hnot _ ih =>
    rw [List.map_cons, List.cons_append, Store.follow, if_neg hname]
    simp only
    exact ih habove links ways
  | @along here between l name rest target m n hname hlink htarget hrest ihtarget ihrest =>
    -- a link that is being followed leads over more links than what it stands for can
    have hnew : (here ++ [name]) ∉ entered := by
      intro hin
      have hle := habove _ hin target m between hlink (by simpa using htarget)
      omega
    have hinner : s.Above ((here ++ [name]) :: entered) m := by
      intro link hin target' k l' hlink' hsolves
      rcases List.mem_cons.1 hin with rfl | hin
      · obtain ⟨⟩ : Entry.link _ = Entry.link _ := Option.some.inj (hlink.symm.trans hlink')
        rw [List.dropLast_concat] at hsolves
        exact Nat.le_of_eq (htarget.unique hsolves).1
      · have hle := habove link hin target' k l' hlink' hsolves
        omega
    rw [List.map_cons, List.cons_append, Store.follow, if_neg hname]
    simp only [hlink, List.contains_eq_mem, hnew, decide_false, Bool.false_eq_true, if_false]
    calc s.follow (links + (m + n)) ((here ++ [name]) :: entered) (if target.isAbsolute then [] else here)
          (target.names.map Way.name ++ .leave (here ++ [name]) :: (rest.map Way.name ++ ways))
      _ = s.follow (links + n) ((here ++ [name]) :: entered) between
            (.leave (here ++ [name]) :: (rest.map Way.name ++ ways)) := by
          rw [show links + (m + n) = links + n + m by omega]
          exact ihtarget hinner (links + n) _
      _ = s.follow (links + n) entered between (rest.map Way.name ++ ways) := by
          rw [Store.follow, List.erase_cons_head]
      _ = s.follow links entered l ways := ihrest (habove.mono (by omega)) links ways

theorem realPath_of_solves (h : s.Solves [] p.names n l) (hn : n ≤ maxLinks) : s.realPath p = .ok ⟨.slash, l⟩ := by
  have habove : s.Above [] n := by simp [Above]
  have hfollow := h.follow habove (maxLinks + s.entries.length - n) []
  rw [Nat.sub_add_cancel (by omega), List.append_nil] at hfollow
  rw [realPath, hfollow, Store.follow]
  rfl

/-- A place that a path leads to is its real path. -/
theorem realPath_of_locate (h : s.locate p = .ok l) : s.realPath p = .ok ⟨.slash, l⟩ := by
  obtain ⟨n, hn, hsolves⟩ := (locate_eq_ok_iff.1 h).solves
  exact realPath_of_solves hsolves hn

/-- Nothing but links matters to where names lead. -/
theorem Grows.solves {s' : Store} (hgrows : s.Grows s') (h : s'.Solves here names n l) : s.Solves here names n l := by
  induction h with
  | arrive here => exact .arrive here
  | up _ ih => exact .up ih
  | plain hname hnot _ ih => exact .plain hname (fun target hlink => hnot target ((hgrows.link ..).2 hlink)) ih
  | along hname hlink _ _ ihtarget ihrest => exact .along hname ((hgrows.link ..).1 hlink) ihtarget ihrest

/-- Where no link is in the way, names lead further down one by one. -/
theorem Solves.straight (h : s.Solves here names n l) (hup : ".." ∉ names)
    (hfree : ∀ below target, below ≠ [] → s.find? (here ++ below) ≠ some (.link target)) : l = here ++ names := by
  induction h with
  | arrive here => exact (List.append_nil here).symm
  | up => exact absurd (List.mem_cons_self ..) hup
  | @plain here l name rest n _ _ _ ih =>
    rw [List.append_cons]
    refine ih (fun hin => hup (List.mem_cons_of_mem _ hin)) fun below target _ hlink => ?_
    rw [List.append_assoc] at hlink
    exact hfree (name :: below) target (List.cons_ne_nil _ _) hlink
  | along _ hlink => exact absurd hlink (hfree [_] _ (List.cons_ne_nil _ _))

/-- There are no links below a directory, wherever it really is. -/
def LinkFreeBelow (s : Store) (directory : FilePath) : Prop :=
  ∀ here, s.realPath directory = .ok ⟨.slash, here⟩ →
    ∀ below target, below ≠ [] → s.find? (here ++ below) ≠ some (.link target)

/-- Below a directory without links in it a path leads to the place of its names. -/
theorem LinkFreeBelow.locate {directory : FilePath} {after : Store} (h : s.LinkFreeBelow directory)
    (hgrows : s.Grows after) (hrelative : p.root = .relative) (hup : ".." ∉ p.names)
    (hl : after.locate (directory.join p) = .ok l) :
    ∃ here, s.realPath directory = .ok ⟨.slash, here⟩ ∧ l = here ++ p.names := by
  obtain ⟨n, hn, hsolves⟩ := (locate_eq_ok_iff.1 hl).solves
  have hnames : (directory.join p).names = directory.names ++ p.names := by
    simp [FilePath.join, FilePath.isAbsolute, hrelative]
  rw [hnames] at hsolves
  obtain ⟨m, k, here, hdirectory, hbelow, rfl⟩ := (hgrows.solves hsolves).split
  have hreal := realPath_of_solves hdirectory (by omega)
  exact ⟨here, hreal, hbelow.straight hup (h here hreal)⟩

end TwinModule.Store
