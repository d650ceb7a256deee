import Datacl.Docroots.Server

/-!
# Clients of the server

A client that gets a table space works on a copy of its own. What it sees are the docroot that was
copied and its own calls: nothing that an earlier client has left, and nothing of what other clients do.
Nothing is left of a table space whose token has been given back.
-/

namespace Datacl

open Interleaving

variable {conf : List TableSpace} {b : Backend} {s s₀ s' : Server} {i j : Nat} {q r : Docroot}

/-! ### The configuration -/

/-- The data directories of a table space. -/
def TableSpace.IsDataDir (t : TableSpace) (x : Name) : Prop :=
  x ≠ [] ∧ (x = t.dskDataDir ∨ x = t.ramDataDir)

/-- The directories of a table space are not in those of another one, and neither are the docroots that
are copied and their data. -/
structure ConfOk (conf : List TableSpace) (s₀ : Server) : Prop where
  docroot : ∀ i < conf.length, (spaceAt conf i).qDocroot ≠ []
  dsk : ∀ i < conf.length, ddirName (spaceAt conf i).dskDataDir = some (spaceAt conf i).dskDataDir
  ram : ∀ i < conf.length, (spaceAt conf i).ramDataDir ≠ [] →
    ddirName (spaceAt conf i).ramDataDir = some (spaceAt conf i).ramDataDir
  apart : ∀ i < conf.length, ∀ j < conf.length, i ≠ j →
    ¬ (spaceAt conf j).Owns (spaceAt conf i).qDocroot ∧
      ¬ (spaceAt conf j).Owns (spaceAt conf i).dskDataDir ∧
        ¬ (spaceAt conf j).Owns (spaceAt conf i).ramDataDir
  base : ∀ i < conf.length, ∀ j < conf.length, ¬ (spaceAt conf j).Owns (spaceAt conf i).bsDocroot
  baseDirs : ∀ i < conf.length, ∀ j < conf.length, ∀ q ∈ s₀.docroots (spaceAt conf i).bsDocroot,
    ∀ x ∈ q.ddirs, ¬ (spaceAt conf j).Owns x.name
  sound : ∀ i < conf.length, ∀ q ∈ s₀.docroots (spaceAt conf i).bsDocroot, q.Sound

/-- What a docroot of the table space lists. -/
structure Serves (conf : List TableSpace) (s₀ : Server) (i : Nat) (r : Docroot) : Prop where
  own : ∀ d, r.OwnDir d → (spaceAt conf i).IsDataDir (r.name d)
  listed : ∀ d, r.name d ≠ [] → r.OwnDir d ∨
    ∃ q ∈ s₀.docroots (spaceAt conf i).bsDocroot, ∃ e, r.name d = q.name e

lemma Serves.congr (h : Serves conf s₀ i r) (hdirs : q.ddirs = r.ddirs) : Serves conf s₀ i q := by
  have hddir : q.ddir = r.ddir := by
    funext d
    unfold Docroot.ddir
    rw [hdirs]
  have hname : q.name = r.name := by
    funext d
    unfold Docroot.name
    rw [hddir]
  refine ⟨fun d hd => ?_, fun d hd => ?_⟩
  · rw [hname]
    exact h.own d ⟨hd.1, hname ▸ hd.2⟩
  · rw [hname] at hd ⊢
    rcases h.listed d hd with hown | hother
    · exact .inl ⟨hown.1, by rw [hname]; exact hown.2⟩
    · exact .inr hother

lemma ConfOk.not_owns_base (h : ConfOk conf s₀) (hi : i < conf.length) (hj : j < conf.length)
    (hq : q ∈ s₀.docroots (spaceAt conf i).bsDocroot) (d : Int) :
    ¬ (spaceAt conf j).Owns (q.name d) := by
  by_cases hname : q.name d = []
  · rw [hname]
    exact TableSpace.not_owns_nil _
  · obtain ⟨k, hk, rfl⟩ := Docroot.exists_index hname
    rw [Docroot.name_natCast, List.getD_eq_getElem _ _ hk]
    exact h.baseDirs i hi j hj q hq _ (List.getElem_mem hk)

/-- The directories of a docroot are not those of another table space. -/
lemma ConfOk.not_owns (h : ConfOk conf s₀) (hi : i < conf.length) (hj : j < conf.length)
    (hne : i ≠ j) (hr : Serves conf s₀ i r) (d : Int) : ¬ (spaceAt conf j).Owns (r.name d) := by
  by_cases hname : r.name d = []
  · rw [hname]
    exact TableSpace.not_owns_nil _
  · rcases hr.listed d hname with hown | ⟨q, hq, e, he⟩
    · rcases (hr.own d hown).2 with hdsk | hram
      · rw [hdsk]
        exact (h.apart i hi j hj hne).2.1
      · rw [hram]
        exact (h.apart i hi j hj hne).2.2
    · rw [he]
      exact h.not_owns_base hi hj hq e

/-- A docroot sees nothing of what is done in another table space. -/
lemma Touches.store (h : Touches conf j s s') (hconf : ConfOk conf s₀) (hi : i < conf.length)
    (hj : j < conf.length) (hne : i ≠ j) (hr : Serves conf s₀ i r) :
    r.store s'.files = r.store s.files :=
  Docroot.store_congr fun d n _ => h.files _ n (hconf.not_owns hi hj hne hr d)

lemma Touches.docroot (h : Touches conf j s s') (hconf : ConfOk conf s₀) (hi : i < conf.length)
    (hj : j < conf.length) (hne : i ≠ j) :
    s'.docroots (spaceAt conf i).qDocroot = s.docroots (spaceAt conf i).qDocroot :=
  h.docroots _ (hconf.apart i hi j hj hne).1

/-! ### The copy that a client gets -/

lemma ddirName_ne_nil {x : Name} (h : ddirName x = some x) : x ≠ [] := by
  rintro rfl
  exact absurd h (by decide)

lemma initDdirs_eq_some {dsk ram : Name} {ds ds' : List DdirRec} (hlen : 2 ≤ ds.length)
    (hram1 : (ds.getD 1 newDdirRec).name = []) (hdsk : ddirName dsk = some dsk)
    (hram : ram ≠ [] → ddirName ram = some ram) (h : initDdirs dsk ram ds = some ds') :
    (ds'.getD 0 newDdirRec).name = dsk ∧ (ds'.getD 1 newDdirRec).name = ram ∧ dsk ≠ ram := by
  unfold initDdirs at h
  obtain ⟨x, hx, h⟩ := Option.bind_eq_some_iff.mp h
  rw [hdsk] at hx
  obtain rfl := Option.some.inj hx
  dsimp only at h
  split_ifs at h with hnone hsame
  · obtain rfl := Option.some.inj h
    refine ⟨?_, ?_, ?_⟩
    · rw [getD_set_ddir, if_pos ⟨rfl, by omega⟩]
    · rw [getD_set_ddir, if_neg (by omega), hram1, hnone]
    · rw [hnone]
      exact ddirName_ne_nil hdsk
  · obtain ⟨y, hy, h⟩ := Option.bind_eq_some_iff.mp h
    rw [hram hnone] at hy
    obtain rfl := Option.some.inj hy
    obtain rfl := Option.some.inj h
    refine ⟨?_, ?_, fun heq => hsame heq.symm⟩
    · rw [getD_set_ddir, if_neg (by omega), getD_set_ddir, if_pos ⟨rfl, by omega⟩]
    · rw [getD_set_ddir, if_pos ⟨rfl, by rw [List.length_set]; omega⟩]

lemma own_of_bootstrap {dsk ram : Name} (hdsk : ddirName dsk = some dsk)
    (hram : ram ≠ [] → ddirName ram = some ram) (h : bootstrapMetaData q dsk ram = some r) :
    r.name 0 = dsk ∧ r.name 1 = ram ∧ dsk ≠ ram := by
  unfold bootstrapMetaData at h
  split_ifs at h with hroom
  obtain ⟨ds, hds, h⟩ := Option.bind_eq_some_iff.mp h
  obtain rfl := Option.some.inj h
  obtain ⟨-, htwo, -⟩ := (roomForDdirs_iff _).mp (Bool.eq_true_of_not_eq_false hroom)
  have hlen : 2 ≤ (shiftDdirs q.ddirs).length := by
    rw [length_shiftDdirs (by omega)]
    omega
  refine initDdirs_eq_some (by rw [List.length_set, List.length_set]; exact hlen) ?_ hdsk hram hds
  rw [getD_set_ddir, if_pos ⟨rfl, by rw [List.length_set]; omega⟩]
  rfl

/-- The docroot that is made for a client. -/
lemma ConfOk.serves (h : ConfOk conf s₀) (hi : i < conf.length)
    (hq : q ∈ s₀.docroots (spaceAt conf i).bsDocroot)
    (hr : bootstrapMetaData q (spaceAt conf i).dskDataDir (spaceAt conf i).ramDataDir = some r) :
    Serves conf s₀ i r ∧ r.Sound := by
  obtain ⟨hzero, hone, hne⟩ := own_of_bootstrap (h.dsk i hi) (h.ram i hi) hr
  obtain ⟨-, -, -, -, -, -, hnames⟩ := bootstrapMetaData_eq_some hr
  have hown : ∀ x ∈ q.ddirs, x.name ≠ [] → x.name ≠ r.name 0 ∧ x.name ≠ r.name 1 := by
    intro x hx hname
    rw [hzero, hone]
    have hout := h.baseDirs i hi i hi q hq x hx
    exact ⟨fun heq => hout (heq ▸ TableSpace.owns_self (by simp) (heq ▸ hname)),
      fun heq => hout (heq ▸ TableSpace.owns_self (by simp) (heq ▸ hname))⟩
  have hfresh : Machine.Fresh ⟨s₀.files, [q]⟩ r := by
    refine ⟨by rw [hzero, hone]; exact hne, fun q' hq' => ?_⟩
    rw [List.mem_singleton.mp hq']
    exact hown
  refine ⟨⟨fun d hd => ⟨hd.2, ?_⟩, fun d hd => ?_⟩,
    hfresh.sound_bootstrap List.mem_cons_self (h.sound i hi q hq) hr⟩
  · rcases hd.1 with rfl | rfl
    · exact .inl hzero
    · exact .inr hone
  · obtain ⟨k, -, rfl⟩ := Docroot.exists_index hd
    by_cases hk : 2 ≤ k
    · exact .inr ⟨q, hq, _, hnames k hk⟩
    · exact .inl ⟨by omega, hd⟩

/-! ### Requests -/

namespace Server

/-- A step is one of three, or nothing is done. -/
lemma step_cases (conf : List TableSpace) (b : Backend) (s : Server) (x : Request) :
    s.step conf b x = s ∨ ∃ j < conf.length,
      (∃ query draw, x = .init query draw ∧ s.tokens j = 0 ∧
        s.step conf b x = (s.setToken j draw).renew (spaceAt conf j)) ∨
      (∃ query, x = .free query ∧ clientToken query = some (s.tokens j) ∧
        s.step conf b x = (s.clear (spaceAt conf j)).setToken j 0) ∨
      ∃ query w op, x = .q query w op ∧ clientToken query = some (s.tokens j) ∧
        s.step conf b x = s.call b (spaceAt conf j) w op := by
  have hrange : ∀ {p : Nat → Bool} {j}, (List.range conf.length).find? p = some j →
      j < conf.length ∧ p j = true := fun hfind =>
    ⟨List.mem_range.mp (List.mem_of_find?_eq_some hfind), List.find?_some hfind⟩
  cases x with
  | init query draw =>
    cases hname : clientTablespace query with
    | none => exact .inl (by simp only [step, processReq, hname])
    | some lgclName =>
      cases hfind : s.findFree conf lgclName with
      | none => exact .inl (by simp only [step, processReq, hname, hfind])
      | some j =>
        obtain ⟨hj, hfree⟩ := hrange hfind
        refine .inr ⟨j, hj, .inl ⟨query, draw, rfl, (of_decide_eq_true hfree).1, ?_⟩⟩
        simp only [step, processReq, hname, hfind]
  | free query =>
    cases htoken : clientToken query with
    | none => exact .inl (by simp only [step, processReq, htoken])
    | some token =>
      cases hfind : s.findToken conf token with
      | none => exact .inl (by simp only [step, processReq, htoken, hfind])
      | some j =>
        obtain ⟨hj, hsame⟩ := hrange hfind
        have hsame := of_decide_eq_true hsame
        refine .inr ⟨j, hj, .inr (.inl ⟨query, rfl, by rw [htoken, hsame], ?_⟩)⟩
        simp only [step, processReq, htoken, hfind]
  | q query w op =>
    cases htoken : clientToken query with
    | none => exact .inl (by simp only [step, processReq, htoken])
    | some token =>
      cases hfind : s.findToken conf token with
      | none => exact .inl (by simp only [step, processReq, htoken, hfind])
      | some j =>
        obtain ⟨hj, hsame⟩ := hrange hfind
        have hsame := of_decide_eq_true hsame
        refine .inr ⟨j, hj, .inr (.inr ⟨query, w, op, rfl, by rw [htoken, hsame], ?_⟩)⟩
        simp only [step, processReq, htoken, hfind]

end Server

/-! ### What holds between requests -/

/-- The docroots that are copied and their data are as they were, the docroot of a table space in use
is one that was copied for it, and no token is given twice. -/
structure ServerWf (conf : List TableSpace) (s₀ s : Server) : Prop where
  base : ∀ j < conf.length,
    s.docroots (spaceAt conf j).bsDocroot = s₀.docroots (spaceAt conf j).bsDocroot
  baseFiles : ∀ j < conf.length, ∀ q ∈ s₀.docroots (spaceAt conf j).bsDocroot, ∀ d n,
    s.files (q.name d) n = s₀.files (q.name d) n
  busy : ∀ j < conf.length, s.tokens j ≠ 0 → ∀ r ∈ s.docroots (spaceAt conf j).qDocroot,
    Serves conf s₀ j r ∧ r.Sound
  tokens : ∀ i < conf.length, ∀ j < conf.length, s.tokens i ≠ 0 → s.tokens i = s.tokens j → i = j

lemma serverWf_start (h0 : ∀ i, s₀.tokens i = 0) : ServerWf conf s₀ s₀ where
  base _ _ := rfl
  baseFiles _ _ _ _ _ _ := rfl
  busy j _ hj := absurd (h0 j) hj
  tokens i _ _ _ hi := absurd (h0 i) hi

/-- The condition on a request: a token that is drawn is a new one, the token of a request is not 0 once
it is cut to 32 bits, and calls respect external fields. -/
def Server.Careful (conf : List TableSpace) (s : Server) : Request → Prop
  | .init _ draw => draw ≠ 0 ∧ ∀ k < conf.length, s.tokens k ≠ draw
  | .free queryString => clientToken queryString ≠ some 0
  | .q queryString _ op => clientToken queryString ≠ some 0 ∧
    ∀ j < conf.length, clientToken queryString = some (s.tokens j) →
      ∀ r ∈ s.docroots (spaceAt conf j).qDocroot, op.Respects (r.store s.files)

instance (conf : List TableSpace) (s : Server) : (x : Request) → Decidable (s.Careful conf x)
  | .init _ draw => inferInstanceAs (Decidable (draw ≠ 0 ∧ ∀ k < conf.length, s.tokens k ≠ draw))
  | .free queryString => inferInstanceAs (Decidable (clientToken queryString ≠ some 0))
  | .q queryString _ op => inferInstanceAs (Decidable (clientToken queryString ≠ some 0 ∧
    ∀ j < conf.length, clientToken queryString = some (s.tokens j) →
      ∀ r ∈ s.docroots (spaceAt conf j).qDocroot, op.Respects (r.store s.files)))

/-- A step in one table space keeps what concerns the docroots that are copied. -/
lemma ServerWf.of_touches (h : ServerWf conf s₀ s) (hconf : ConfOk conf s₀) (hj : j < conf.length)
    (htouches : Touches conf j s s')
    (hbusy : s'.tokens j ≠ 0 → ∀ r ∈ s'.docroots (spaceAt conf j).qDocroot,
      Serves conf s₀ j r ∧ r.Sound)
    (htokens : s'.tokens j = 0 ∨ ∀ k < conf.length, k ≠ j → s.tokens k ≠ s'.tokens j) :
    ServerWf conf s₀ s' where
  base k hk := (htouches.docroots _ (hconf.base k hk j hj)).trans (h.base k hk)
  baseFiles k hk q hq d n :=
    (htouches.files _ n (hconf.not_owns_base hk hj hq d)).trans (h.baseFiles k hk q hq d n)
  busy k hk htoken r hr := by
    by_cases hkj : k = j
    · subst hkj
      exact hbusy htoken r hr
    · rw [htouches.tokens k hkj] at htoken
      rw [htouches.docroot hconf hk hj hkj] at hr
      exact h.busy k hk htoken r hr
  tokens i hi k hk h0 hsame := by
    by_cases hij : i = j
    · by_cases hkj : k = j
      · rw [hij, hkj]
      · subst hij
        rw [htouches.tokens k hkj] at hsame
        rcases htokens with hzero | hnew
        · exact absurd hzero h0
        · exact absurd hsame.symm (hnew k hk hkj)
    · rw [htouches.tokens i hij] at h0 hsame
      by_cases hkj : k = j
      · subst hkj
        rcases htokens with hzero | hnew
        · exact absurd (hsame.trans hzero) h0
        · exact absurd hsame (hnew i hi hij)
      · rw [htouches.tokens k hkj] at hsame
        exact h.tokens i hi k hk h0 hsame

namespace Server

variable {w : World} {op : DocrootOp}

lemma touches_renew (hconf : ConfOk conf s₀) (hj : j < conf.length) (draw : Nat) (s : Server) :
    Touches conf j s ((s.setToken j draw).renew (spaceAt conf j)) := by
  have hset : Touches conf j s (s.setToken j draw) :=
    Touches.setToken ⟨fun _ _ => rfl, fun _ _ _ => rfl, fun _ _ => rfl⟩ draw
  have hclear := touches_clear conf j (s.setToken j draw)
  refine Touches.setDocroot ⟨fun x hx => ?_, fun x n hx => ?_, fun i hi => ?_⟩ (hconf.docroot j hj) _
  · exact (hclear.docroots x hx).trans (hset.docroots x hx)
  · exact (hclear.files x n hx).trans (hset.files x n hx)
  · exact (hclear.tokens i hi).trans (hset.tokens i hi)

lemma renew_token (t : TableSpace) (draw : Nat) : ((s.setToken j draw).renew t).tokens j = draw := by
  show ((s.setToken j draw).clear t).tokens j = draw
  rw [clear_tokens]
  exact Function.update_self _ _ _

/-- The docroot that `renew` makes. -/
lemma renew_docroot (h : ServerWf conf s₀ s) (hconf : ConfOk conf s₀) (hj : j < conf.length)
    (draw : Nat) :
    ((s.setToken j draw).renew (spaceAt conf j)).docroots (spaceAt conf j).qDocroot =
      (s₀.docroots (spaceAt conf j).bsDocroot).bind fun q =>
        bootstrapMetaData q (spaceAt conf j).dskDataDir (spaceAt conf j).ramDataDir := by
  refine (Function.update_self _ _ _).trans ?_
  rw [clear_docroots (hconf.base j hj j hj)]
  show (s.docroots (spaceAt conf j).bsDocroot).bind _ = _
  rw [h.base j hj]

lemma call_none {t : TableSpace} (hr : s.docroots t.qDocroot = none) : s.call b t w op = s := by
  unfold call
  rw [hr]

lemma call_some {t : TableSpace} (hr : s.docroots t.qDocroot = some r) :
    s.call b t w op =
      { s with
        docroots := Function.update s.docroots t.qDocroot
          (some (r.withRecs (op.exec b (r.env w) (r.store s.files)).2))
        files := r.writeBack (r.store s.files) (op.exec b (r.env w) (r.store s.files)).2 s.files } := by
  unfold call
  rw [hr]

lemma touches_call (hconf : ConfOk conf s₀) (hj : j < conf.length)
    (hr : s.docroots (spaceAt conf j).qDocroot = some r) (hserves : Serves conf s₀ j r)
    (hexec : Confined r.OwnDir (r.store s.files) (op.exec b (r.env w) (r.store s.files)).2) :
    Touches conf j s (s.call b (spaceAt conf j) w op) := by
  rw [call_some hr]
  generalize (op.exec b (r.env w) (r.store s.files)).2 = st' at hexec ⊢
  have hfiles : ∀ x n, ¬ (spaceAt conf j).Owns x →
      r.writeBack (r.store s.files) st' s.files x n = s.files x n := by
    intro x n hx
    refine Docroot.writeBack_unchanged fun d hd => hexec.disk d n fun hown => hx ?_
    obtain ⟨hne, hdir⟩ := hserves.own d hown
    rw [hd] at hne hdir
    rcases hdir with rfl | rfl
    · exact TableSpace.owns_self (by simp) hne
    · exact TableSpace.owns_self (by simp) hne
  have htouches : Touches conf j s { s with files := r.writeBack (r.store s.files) st' s.files } :=
    ⟨fun _ _ => rfl, hfiles, fun _ _ => rfl⟩
  exact htouches.setDocroot (hconf.docroot j hj) _

lemma confined_call (h : ServerWf conf s₀ s) (hj : j < conf.length) (hbusy : s.tokens j ≠ 0)
    (hr : s.docroots (spaceAt conf j).qDocroot = some r) (hok : op.Respects (r.store s.files)) :
    Confined r.OwnDir (r.store s.files) (op.exec b (r.env w) (r.store s.files)).2 :=
  ((h.busy j hj hbusy r hr).2.confined s.files).exec (r.env_writesTo w) hok

end Server

open Server

section

variable {w : World} {op : DocrootOp}

/-- A call in a table space that is in use. -/
lemma ServerWf.call (h : ServerWf conf s₀ s) (hconf : ConfOk conf s₀) (hj : j < conf.length)
    (hbusy : s.tokens j ≠ 0)
    (hok : ∀ r ∈ s.docroots (spaceAt conf j).qDocroot, op.Respects (r.store s.files)) :
    ServerWf conf s₀ (s.call b (spaceAt conf j) w op) ∧
      Touches conf j s (s.call b (spaceAt conf j) w op) := by
  cases hr : s.docroots (spaceAt conf j).qDocroot with
  | none =>
    rw [call_none hr]
    exact ⟨h, fun _ _ => rfl, fun _ _ _ => rfl, fun _ _ => rfl⟩
  | some r =>
    obtain ⟨hserves, hsound⟩ := h.busy j hj hbusy r hr
    have hexec := confined_call (b := b) (w := w) h hj hbusy hr (hok r hr)
    have htouches := touches_call hconf hj hr hserves hexec
    refine ⟨h.of_touches hconf hj htouches (fun _ r' hr' => ?_) (.inr fun k hk hne heq => ?_),
      htouches⟩
    · rw [call_some hr] at hr'
      have hnew : Function.update s.docroots (spaceAt conf j).qDocroot
          (some (r.withRecs (op.exec b (r.env w) (r.store s.files)).2)) (spaceAt conf j).qDocroot =
            some r' := hr'
      rw [Function.update_self] at hnew
      obtain rfl := Option.some.inj hnew
      exact ⟨hserves.congr rfl, hsound.withRecs hexec⟩
    · rw [call_some hr] at heq
      exact hne (h.tokens k hk j hj (heq ▸ hbusy) heq)

/-- Every request keeps what holds between requests. -/
lemma ServerWf.step (h : ServerWf conf s₀ s) (hconf : ConfOk conf s₀) {x : Request}
    (hok : s.Careful conf x) : ServerWf conf s₀ (s.step conf b x) := by
  rcases step_cases conf b s x with hnone | ⟨j, hj, hinit | hfree | hq⟩
  · rw [hnone]
    exact h
  · obtain ⟨query, draw, rfl, -, hstep⟩ := hinit
    rw [hstep]
    refine h.of_touches hconf hj (touches_renew hconf hj draw s) (fun _ r hr => ?_)
      (.inr fun k hk _ => ?_)
    · rw [renew_docroot h hconf hj] at hr
      obtain ⟨q, hbase, hboot⟩ := Option.bind_eq_some_iff.mp hr
      exact hconf.serves hj hbase hboot
    · rw [renew_token]
      exact hok.2 k hk
  · obtain ⟨query, rfl, -, hstep⟩ := hfree
    rw [hstep]
    have hzero : ((s.clear (spaceAt conf j)).setToken j 0).tokens j = 0 := Function.update_self _ _ _
    exact h.of_touches hconf hj ((touches_clear conf j s).setToken 0) (fun hne => absurd hzero hne)
      (.inl hzero)
  · obtain ⟨query, w, op, rfl, htoken, hstep⟩ := hq
    rw [hstep]
    have hbusy : s.tokens j ≠ 0 := fun hzero => hok.1 (by rw [htoken, hzero])
    exact (h.call hconf hj hbusy (hok.2 j hj htoken)).1

end

/-! ### Sessions -/

/-- The calls with a token. -/
def callWith (token : Nat) : Request → Option (World × DocrootOp)
  | .q queryString w op => if clientToken queryString = some token then some (w, op) else none
  | _ => none

/-- The token is not given back. -/
def KeepsToken (token : Nat) : Request → Prop
  | .free queryString => clientToken queryString ≠ some token
  | _ => True

instance (token : Nat) : (x : Request) → Decidable (KeepsToken token x)
  | .free queryString => inferInstanceAs (Decidable (clientToken queryString ≠ some token))
  | .init .. | .q .. => inferInstanceAs (Decidable True)

/-- The table space is in use with the token, its docroot lists what `r` lists, and the store in it
is `st`. -/
structure Session (conf : List TableSpace) (i token : Nat) (r : Docroot) (s : Server) (st : Store) :
    Prop where
  token : s.tokens i = token
  docroot : ∃ r' ∈ s.docroots (spaceAt conf i).qDocroot, r'.ddirs = r.ddirs ∧ r'.store s.files = st

variable {w : World} {op : DocrootOp} {token : Nat} {st : Store}

lemma Session.of_touches (h : Session conf i token r s st) (hconf : ConfOk conf s₀)
    (hi : i < conf.length) (hj : j < conf.length) (hne : i ≠ j) (hserves : Serves conf s₀ i r)
    (htouches : Touches conf j s s') :
    Session conf i token r s' st := by
  obtain ⟨r', hr', hdirs, hstore⟩ := h.docroot
  refine ⟨(htouches.tokens i hne).trans h.token, r', ?_, hdirs, ?_⟩
  · rw [htouches.docroot hconf hi hj hne]
    exact hr'
  · rw [htouches.store hconf hi hj hne (hserves.congr hdirs), hstore]

lemma Session.call (h : Session conf i token r s st) (hwf : ServerWf conf s₀ s)
    (hi : i < conf.length) (htoken : token ≠ 0)
    (hok : ∀ r ∈ s.docroots (spaceAt conf i).qDocroot, op.Respects (r.store s.files)) :
    Session conf i token r (s.call b (spaceAt conf i) w op) (r.act b st (w, op)) := by
  obtain ⟨r', hr', hdirs, rfl⟩ := h.docroot
  have hbusy : s.tokens i ≠ 0 := by
    rw [h.token]
    exact htoken
  have hexec := Server.confined_call (b := b) (w := w) hwf hi hbusy hr' (hok r' hr')
  have hact : (op.exec b (r'.env w) (r'.store s.files)).2 = r.act b (r'.store s.files) (w, op) := by
    rw [Docroot.env_congr hdirs]
    rfl
  rw [Server.call_some hr', ← hact]
  refine ⟨h.token, r'.withRecs (op.exec b (r'.env w) (r'.store s.files)).2, ?_, hdirs, ?_⟩
  · exact Function.update_self _ _ _
  · exact Docroot.store_writeBack (hwf.busy i hi hbusy r' hr').2.named hexec

/-- The first table space with a token that is in use is the only one. -/
lemma Server.step_call (h : ServerWf conf s₀ s) (hi : i < conf.length) (hbusy : s.tokens i ≠ 0)
    {queryString : List Char} (htoken : clientToken queryString = some (s.tokens i)) :
    s.step conf b (.q queryString w op) = s.call b (spaceAt conf i) w op := by
  have hfind : s.findToken conf (s.tokens i) = some i := by
    unfold Server.findToken
    cases hk : (List.range conf.length).find? fun k => s.tokens k = s.tokens i with
    | none =>
      rw [List.find?_eq_none] at hk
      exact absurd (decide_eq_true rfl) (hk i (List.mem_range.mpr hi))
    | some k =>
      have hlt := List.mem_range.mp (List.mem_of_find?_eq_some hk)
      have hfound := List.find?_some hk
      rw [h.tokens i hi k hlt hbusy (of_decide_eq_true hfound).symm]
  simp only [Server.step, Server.processReq, htoken, hfind]

lemma follows_session (hconf : ConfOk conf s₀) (hi : i < conf.length) (htoken : token ≠ 0)
    (hserves : Serves conf s₀ i r) :
    Follows (Server.step conf b) (fun s x => s.Careful conf x ∧ KeepsToken token x) (callWith token)
      (r.act b) fun s st => ServerWf conf s₀ s ∧ Session conf i token r s st where
  own s st x y h hok hx := by
    obtain ⟨hwf, hsession⟩ := h
    refine ⟨hwf.step hconf hok.1, ?_⟩
    cases x with
    | init query draw => simp [callWith] at hx
    | free query => simp [callWith] at hx
    | q query w op =>
      unfold callWith at hx
      dsimp only at hx
      split_ifs at hx with hclient
      obtain rfl := Option.some.inj hx
      rw [← hsession.token] at hclient
      have hbusy : s.tokens i ≠ 0 := by
        rw [hsession.token]
        exact htoken
      rw [Server.step_call hwf hi hbusy hclient]
      exact hsession.call hwf hi htoken (hok.1.2 i hi hclient)
  other s st x h hok hx := by
    obtain ⟨hwf, hsession⟩ := h
    refine ⟨hwf.step hconf hok.1, ?_⟩
    rcases Server.step_cases conf b s x with hnone | ⟨j, hj, hinit | hfree | hq⟩
    · rw [hnone]
      exact hsession
    · obtain ⟨query, draw, rfl, hzero, hstep⟩ := hinit
      have hne : i ≠ j := by
        rintro rfl
        exact htoken (hsession.token.symm.trans hzero)
      rw [hstep]
      exact hsession.of_touches hconf hi hj hne hserves (Server.touches_renew hconf hj draw s)
    · obtain ⟨query, rfl, hclient, hstep⟩ := hfree
      have hne : i ≠ j := by
        rintro rfl
        exact hok.2 (by rw [hclient, hsession.token])
      rw [hstep]
      exact hsession.of_touches hconf hi hj hne hserves ((Server.touches_clear conf j s).setToken 0)
    · obtain ⟨query, w, op, rfl, hclient, hstep⟩ := hq
      have hne : i ≠ j := by
        rintro rfl
        simp [callWith, hclient, hsession.token] at hx
      have hbusy : s.tokens j ≠ 0 := fun hzero => hok.1.1 (by rw [hclient, hzero])
      rw [hstep]
      exact hsession.of_touches hconf hi hj hne hserves
        (hwf.call hconf hj hbusy (hok.1.2 j hj hclient)).2

lemma Server.findFree_lt {lgclName : Name} (h : s.findFree conf lgclName = some i) :
    i < conf.length := List.mem_range.mp (List.mem_of_find?_eq_some h)

lemma Server.step_init {queryString : List Char} {draw : Nat} {lgclName : Name}
    (hname : clientTablespace queryString = some lgclName)
    (hfree : s.findFree conf lgclName = some i) :
    s.step conf b (.init queryString draw) = (s.setToken i draw).renew (spaceAt conf i) := by
  simp only [Server.step, Server.processReq, hname, hfree]

/-- The copy is the one that the first client of the table space would have got. -/
lemma Session.start (h : ServerWf conf s₀ s) (hconf : ConfOk conf s₀) (hi : i < conf.length)
    (hq : q ∈ s₀.docroots (spaceAt conf i).bsDocroot)
    (hr : bootstrapMetaData q (spaceAt conf i).dskDataDir (spaceAt conf i).ramDataDir = some r) :
    Session conf i token r ((s.setToken i token).renew (spaceAt conf i))
      (r.store (s₀.clear (spaceAt conf i)).files) := by
  have hserves := (hconf.serves hi hq hr).1
  refine ⟨renew_token _ _, r, ?_, rfl, Docroot.store_congr fun d n hd => ?_⟩
  · rw [Server.renew_docroot h hconf hi, Option.mem_def.mp hq]
    exact hr
  · show ((s.setToken i token).clear (spaceAt conf i)).files (r.name d) n = _
    rw [Server.clear_files, Server.clear_files]
    by_cases howns : (spaceAt conf i).Owns (r.name d)
    · rw [if_pos howns, if_pos howns]
    · rw [if_neg howns, if_neg howns]
      rcases hserves.listed d hd with hown | ⟨q', hq', e, he⟩
      · refine absurd ?_ howns
        rcases (hserves.own d hown).2 with hdsk | hram
        · exact TableSpace.owns_self (by simp [hdsk]) hd
        · exact TableSpace.owns_self (by simp [hram]) hd
      · rw [he]
        exact h.baseFiles i hi q' hq' e n

lemma under_iff {p x : Name} : under p x = true ↔ x = p ∨ p ++ ['/'] <+: x := by
  simp [under]

/-- If a directory lies in two others, one of these lies in the other. -/
lemma under_or_under {p p' x : Name} (h : under p x = true) (h' : under p' x = true) :
    under p p' = true ∨ under p' p = true := by
  have hbelow : ∀ {p p' : Name}, p ++ ['/'] <+: p' ++ ['/'] → under p p' = true := by
    intro p p' hprefix
    rw [under_iff]
    rcases List.prefix_concat_iff.mp hprefix with heq | hlt
    · exact .inl (List.append_cancel_right heq).symm
    · exact .inr hlt
  rcases under_iff.mp h with rfl | hp
  · exact .inr h'
  · rcases under_iff.mp h' with rfl | hp'
    · exact .inl h
    · rcases List.prefix_or_prefix_of_prefix hp hp' with hle | hle
      · exact .inl (hbelow hle)
      · exact .inr (hbelow hle)

lemma ConfOk.not_owns_dir (h : ConfOk conf s₀) (hi : i < conf.length) (hj : j < conf.length)
    (hne : i ≠ j) {p : Name}
    (hp : p ∈ [(spaceAt conf i).qDocroot, (spaceAt conf i).dskDataDir, (spaceAt conf i).ramDataDir]) :
    ¬ (spaceAt conf j).Owns p := by
  obtain ⟨hdocroot, hdsk, hram⟩ := h.apart i hi j hj hne
  simp only [List.mem_cons, List.not_mem_nil, or_false] at hp
  rcases hp with rfl | rfl | rfl
  · exact hdocroot
  · exact hdsk
  · exact hram

/-- No directory belongs to two table spaces. -/
lemma ConfOk.owns_apart (h : ConfOk conf s₀) (hi : i < conf.length) (hj : j < conf.length)
    (hne : i ≠ j) {x : Name} (hx : (spaceAt conf i).Owns x) : ¬ (spaceAt conf j).Owns x := by
  obtain ⟨p, hp, hp0, hunder⟩ := hx
  rintro ⟨p', hp', hp0', hunder'⟩
  rcases under_or_under hunder hunder' with hin | hin
  · exact h.not_owns_dir hj hi hne.symm hp' ⟨p, hp, hp0, hin⟩
  · exact h.not_owns_dir hi hj hne hp ⟨p', hp', hp0', hin⟩

/-! ### What is removed -/

lemma Server.clear_docroots_owned {t : TableSpace} {x : Name} (h : t.Owns x) :
    (s.clear t).docroots x = none := by
  have hrm : ∀ (p : Name) (s : Server), s.docroots x = none → (s.rmRf p).docroots x = none := by
    intro p s hnone
    unfold rmRf
    split_ifs
    · exact hnone
    · show (if under p x = true then none else s.docroots x) = none
      rw [hnone, ite_self]
  have hnow : ∀ (p : Name) (s : Server), p ≠ [] ∧ under p x = true → (s.rmRf p).docroots x = none := by
    intro p s hp
    unfold rmRf
    rw [if_neg hp.1]
    exact if_pos hp.2
  obtain ⟨p, hp, hunder⟩ := h
  simp only [List.mem_cons, List.not_mem_nil, or_false] at hp
  unfold clear
  rcases hp with rfl | rfl | rfl
  · exact hrm _ _ (hrm _ _ (hnow _ _ hunder))
  · exact hrm _ _ (hnow _ _ hunder)
  · exact hnow _ _ hunder

/-- There is nothing in the directories of the table space. -/
def EmptySpace (t : TableSpace) (s : Server) : Prop :=
  ∀ x, t.Owns x → s.docroots x = none ∧ ∀ n, s.files x n = none

lemma emptySpace_clear (t : TableSpace) (s : Server) : EmptySpace t (s.clear t) := by
  refine fun x hx => ⟨clear_docroots_owned hx, fun n => ?_⟩
  rw [clear_files, if_pos hx]

/-- The table spaces that are not in use are empty. -/
def IdleEmpty (conf : List TableSpace) (s : Server) : Prop :=
  ∀ j < conf.length, s.tokens j = 0 → EmptySpace (spaceAt conf j) s

lemma IdleEmpty.of_touches (h : IdleEmpty conf s) (hconf : ConfOk conf s₀) (hj : j < conf.length)
    (htouches : Touches conf j s s') (hown : s'.tokens j = 0 → EmptySpace (spaceAt conf j) s') :
    IdleEmpty conf s' := by
  intro k hk hidle
  by_cases hkj : k = j
  · subst hkj
    exact hown hidle
  · rw [htouches.tokens k hkj] at hidle
    intro x hx
    have hother := hconf.owns_apart hk hj hkj hx
    obtain ⟨hdocroot, hfiles⟩ := h k hk hidle x hx
    exact ⟨(htouches.docroots x hother).trans hdocroot,
      fun n => (htouches.files x n hother).trans (hfiles n)⟩

lemma IdleEmpty.step (h : IdleEmpty conf s) (hconf : ConfOk conf s₀) (hwf : ServerWf conf s₀ s)
    {x : Request} (hok : s.Careful conf x) : IdleEmpty conf (s.step conf b x) := by
  rcases step_cases conf b s x with hnone | ⟨j, hj, hinit | hfree | hq⟩
  · rw [hnone]
    exact h
  · obtain ⟨query, draw, rfl, -, hstep⟩ := hinit
    rw [hstep]
    refine h.of_touches hconf hj (touches_renew hconf hj draw s) fun hzero => ?_
    rw [renew_token] at hzero
    exact absurd hzero hok.1
  · obtain ⟨query, rfl, -, hstep⟩ := hfree
    rw [hstep]
    exact h.of_touches hconf hj ((touches_clear conf j s).setToken 0) fun _ =>
      emptySpace_clear (spaceAt conf j) s
  · obtain ⟨query, w, op, rfl, htoken, hstep⟩ := hq
    rw [hstep]
    have hbusy : s.tokens j ≠ 0 := fun hzero => hok.1 (by rw [htoken, hzero])
    obtain ⟨-, htouches⟩ := hwf.call (b := b) (w := w) hconf hj hbusy (hok.2 j hj htoken)
    refine h.of_touches hconf hj htouches fun hzero => absurd hzero ?_
    unfold call
    split
    · exact hbusy
    · exact hbusy

/-- Two table spaces of one name. -/
def twoSpaces : List TableSpace :=
  [⟨['S'], "/base".toList, "/q1".toList, "/d1".toList, []⟩,
    ⟨['S'], "/base".toList, "/q2".toList, "/d2".toList, []⟩]

/-- The docroot that is copied has one column. -/
def columnServer : Server where
  tokens _ := 0
  docroots x := if x = "/base".toList then some columnA else none
  files := withColumn.files

def spaceQuery : List Char := "TABLESPACE=S&".toList

/-- The first client deletes the column, the second one copies it and sorts the copy. -/
def clientCalls : List Request :=
  [.q "TOKEN=7&".toList roomyWorld (.store (.delFld ['T'] (-1) ['x'] (-1))),
    .q "TOKEN=9&".toList roomyWorld (.store (.dupFld ['T'] ['x'] ['y'])),
    .q "TOKEN=9&".toList roomyWorld (.column (.fop ['T'] ['y'] "sortA".toList))]

/-- The state once both clients have been served a table space and have made their calls. -/
def afterCalls : Server :=
  ([Request.init spaceQuery 7] ++ Request.init spaceQuery 9 :: clientCalls).foldl
    (Server.step twoSpaces ⟨plainKernel, stablePairSort⟩) columnServer

/-- What the second client gets. -/
def copyInSecond : Docroot := (bootstrapMetaData columnA "/d2".toList []).getD siteA

lemma sound_columnA : columnA.Sound := by
  have hok : Allowed (Machine.step fewRecords ⟨plainKernel, stablePairSort⟩)
      (Machine.Careful fewRecords) ⟨fun _ _ => none, []⟩ (twoDocroots ++ sideBySide.take 3) := by
    decide
  have hwf := hok.keeps (fun m x h hx => Machine.Wf.step h hx) (Machine.wf_empty _)
  have hcolumn : withColumn.docroots[0]? = some columnA := rfl
  exact hwf.sound columnA (List.mem_of_getElem? hcolumn)

lemma confOk_twoSpaces : ConfOk twoSpaces columnServer where
  docroot := by decide
  dsk := by decide
  ram := by decide
  apart := by decide
  base := by decide
  baseDirs := by decide
  sound i hi q hq := by
    have hbase : ∀ i < twoSpaces.length, (spaceAt twoSpaces i).bsDocroot = "/base".toList := by decide
    have hmem : columnServer.docroots (spaceAt twoSpaces i).bsDocroot = some q := hq
    rw [hbase i hi] at hmem
    obtain rfl : columnA = q := Option.some.inj hmem
    exact sound_columnA

/-- The server without the data of the docroot that is copied. -/
def bareServer : Server := { columnServer with files := fun _ _ => none }

lemma confOk_bareServer : ConfOk twoSpaces bareServer :=
  ⟨confOk_twoSpaces.docroot, confOk_twoSpaces.dsk, confOk_twoSpaces.ram, confOk_twoSpaces.apart,
    confOk_twoSpaces.base, confOk_twoSpaces.baseDirs, confOk_twoSpaces.sound⟩

lemma emptySpace_bareServer (hj : j < twoSpaces.length) :
    EmptySpace (spaceAt twoSpaces j) bareServer := by
  intro x hx
  refine ⟨if_neg fun heq => ?_, fun _ => rfl⟩
  have hbase : ∀ i < twoSpaces.length, (spaceAt twoSpaces i).bsDocroot = "/base".toList := by decide
  have hout := confOk_twoSpaces.base j hj j hj
  rw [hbase j hj, ← heq] at hout
  exact hout hx

/-- A client makes a column of its own and gives the token back. -/
def makeAndFree : List Request :=
  [.init spaceQuery 7, .q "TOKEN=7&".toList roomyWorld (.store (.makeFld 0 ['y']
    ⟨{ zeroFldRec with fldtype := .I2 }, rfl, rfl, rfl⟩ ⟨2, [6, 5]⟩)), .free "TOKEN=7&".toList]

end Datacl
