import Datacl.Docroots.Inherited

/-!
# The server

`qhttpd` hands out table spaces. A client that asks for one gets a token, and the docroot of the table
space is made afresh as a copy of a docroot that is kept aside. Calls with the token are made in this
docroot until the token is given back.
-/

namespace Datacl

/-! ### Table spaces -/

/-- `TABLE_SPACE_TYPE`; the tokens are kept beside it. -/
structure TableSpace where
  lgclName : Name
  bsDocroot : Name
  qDocroot : Name
  dskDataDir : Name
  ramDataDir : Name
  deriving DecidableEq, Repr

/-- The table space at a place of the configuration. -/
def spaceAt (conf : List TableSpace) (i : Nat) : TableSpace := conf.getD i ⟨[], [], [], [], []⟩

/-- `MAX_LEN_LGCL_NAME`. -/
def maxLenLgclName : Nat := 31

/-- The tokens of the table spaces, 0 for one that is not in use, the docroots by their directories,
and the data files. -/
structure Server where
  tokens : Nat → Nat
  docroots : Name → Option Docroot
  files : Files

/-- The directory `x` is `p` or below it. -/
def under (p x : Name) : Bool := x = p || (p ++ ['/']).isPrefixOf x

/-- `rm -rf`, which does nothing if no directory is given. -/
def Server.rmRf (p : Name) (s : Server) : Server :=
  if p = [] then s
  else
    { s with
      docroots := fun x => if under p x = true then none else s.docroots x
      files := fun x n => if under p x = true then none else s.files x n }

/-- The directories of a table space are removed. -/
def Server.clear (t : TableSpace) (s : Server) : Server :=
  ((s.rmRf t.qDocroot).rmRf t.dskDataDir).rmRf t.ramDataDir

/-! ### Requests -/

/-- What a client sends: a request for a table space, with the number that is drawn for its token, the
return of a token, or a command. -/
inductive Request where
  | init (queryString : List Char) (draw : Nat)
  | free (queryString : List Char)
  | q (queryString : List Char) (w : World) (op : DocrootOp)

/-- What the client is sent. -/
inductive Response where
  | token (token : Nat)
  | serverBusy
  | destroyed (token : Nat)
  | invalidToken
  | output
  deriving DecidableEq, Repr

/-- The token of a request. It is read as a number of 64 bits and kept as one of 32. -/
def clientToken (queryString : List Char) : Option Nat :=
  match extractI8 queryString "TOKEN=".toList "&".toList with
  | some (some ltemp) => if ltemp ≤ 0 then none else some (ltemp % 2 ^ 32).toNat
  | _ => none

/-- The name of the table space that a request asks for. -/
def clientTablespace (queryString : List Char) : Option Name :=
  match extractS queryString "TABLESPACE=".toList "&".toList maxLenLgclName with
  | some (some lgclName) => some lgclName
  | _ => none

namespace Server

variable (conf : List TableSpace) (b : Backend)

/-- The first table space of that name that is not in use. -/
def findFree (s : Server) (lgclName : Name) : Option Nat :=
  (List.range conf.length).find? fun i =>
    s.tokens i = 0 ∧ (spaceAt conf i).lgclName = lgclName

/-- The first table space with that token. -/
def findToken (s : Server) (token : Nat) : Option Nat :=
  (List.range conf.length).find? fun i => s.tokens i = token

def setToken (i token : Nat) (s : Server) : Server :=
  { s with tokens := Function.update s.tokens i token }

/-- The directories are made anew, and `bs_docroot` is copied. -/
def renew (t : TableSpace) (s : Server) : Server :=
  let s := s.clear t
  { s with
    docroots := Function.update s.docroots t.qDocroot
      ((s.docroots t.bsDocroot).bind fun r => bootstrapMetaData r t.dskDataDir t.ramDataDir) }

/-- A call in a docroot, if there is one. -/
def call (t : TableSpace) (w : World) (op : DocrootOp) (s : Server) : Server :=
  match s.docroots t.qDocroot with
  | none => s
  | some r =>
    let st := r.store s.files
    let st' := (op.exec b (r.env w) st).2
    { s with
      docroots := Function.update s.docroots t.qDocroot (some (r.withRecs st'))
      files := r.writeBack st st' s.files }

/-- Whether the call succeeds. -/
def succeeds (t : TableSpace) (w : World) (op : DocrootOp) (s : Server) : Bool :=
  match s.docroots t.qDocroot with
  | none => false
  | some r => (op.exec b (r.env w) (r.store s.files)).1.isSome

/-- `process_req`: what is sent, and the state afterwards. -/
def processReq (s : Server) : Request → List Response × Server
  | .init queryString draw =>
    match clientTablespace queryString with
    | none => ([], s)
    | some lgclName =>
      match s.findFree conf lgclName with
      | none => ([.serverBusy], s)
      | some i =>
        let t := spaceAt conf i
        let s' := (s.setToken i draw).renew t
        (if (s'.docroots t.qDocroot).isNone then []
          else .token draw :: if draw = 0 then [.serverBusy] else [], s')
  | .free queryString =>
    match clientToken queryString with
    | none => ([], s)
    | some token =>
      match s.findToken conf token with
      | none => ([], s)
      | some i =>
        let t := spaceAt conf i
        ([.destroyed token], (s.clear t).setToken i 0)
  | .q queryString w op =>
    match clientToken queryString with
    | none => ([], s)
    | some token =>
      match s.findToken conf token with
      | none => ([.invalidToken], s)
      | some i =>
        let t := spaceAt conf i
        (if s.succeeds b t w op then [.output] else [], s.call b t w op)

def step (s : Server) (x : Request) : Server := (s.processReq conf b x).2

end Server

/-! ### What a request touches -/

variable {conf : List TableSpace} {b : Backend} {s s₀ s' : Server} {i j : Nat} {q r : Docroot}

/-- The directory is one of the table space or below one. -/
def TableSpace.Owns (t : TableSpace) (x : Name) : Prop :=
  ∃ p ∈ [t.qDocroot, t.dskDataDir, t.ramDataDir], p ≠ [] ∧ under p x = true

instance (t : TableSpace) (x : Name) : Decidable (t.Owns x) :=
  inferInstanceAs (Decidable (∃ _ ∈ _, _))

lemma under_self (p : Name) : under p p = true := by simp [under]

lemma not_under_nil {p : Name} (h : p ≠ []) : under p [] = false := by
  simp [under, h.symm]

lemma TableSpace.not_owns_nil (t : TableSpace) : ¬ t.Owns [] := by
  rintro ⟨p, -, hne, hunder⟩
  rw [not_under_nil hne] at hunder
  exact absurd hunder (by decide)

lemma TableSpace.owns_self {t : TableSpace} {p : Name}
    (hp : p ∈ [t.qDocroot, t.dskDataDir, t.ramDataDir]) (hne : p ≠ []) : t.Owns p :=
  ⟨p, hp, hne, under_self p⟩

/-- Outside the directories of the table space everything is as it was, and so are the other tokens. -/
structure Touches (conf : List TableSpace) (j : Nat) (s s' : Server) : Prop where
  docroots : ∀ x, ¬ (spaceAt conf j).Owns x → s'.docroots x = s.docroots x
  files : ∀ x n, ¬ (spaceAt conf j).Owns x → s'.files x n = s.files x n
  tokens : ∀ i, i ≠ j → s'.tokens i = s.tokens i

namespace Server

lemma rmRf_docroots {p x : Name} (h : ¬ (p ≠ [] ∧ under p x = true)) :
    (s.rmRf p).docroots x = s.docroots x := by
  unfold rmRf
  by_cases hp : p = []
  · rw [if_pos hp]
  · rw [if_neg hp]
    exact if_neg fun hunder => h ⟨hp, hunder⟩

lemma rmRf_files {p x : Name} (n : Int) :
    (s.rmRf p).files x n = if p ≠ [] ∧ under p x = true then none else s.files x n := by
  unfold rmRf
  by_cases hp : p = []
  · rw [if_pos hp, if_neg fun h => h.1 hp]
  · rw [if_neg hp]
    simp [hp]

lemma rmRf_tokens (p : Name) : (s.rmRf p).tokens = s.tokens := by
  unfold rmRf
  split_ifs <;> rfl

lemma clear_tokens (t : TableSpace) : (s.clear t).tokens = s.tokens := by
  unfold clear
  rw [rmRf_tokens, rmRf_tokens, rmRf_tokens]

lemma clear_docroots {t : TableSpace} {x : Name} (h : ¬ t.Owns x) :
    (s.clear t).docroots x = s.docroots x := by
  have hout : ∀ p ∈ [t.qDocroot, t.dskDataDir, t.ramDataDir], ¬ (p ≠ [] ∧ under p x = true) :=
    fun p hp hunder => h ⟨p, hp, hunder⟩
  unfold clear
  rw [rmRf_docroots (hout _ (by simp)), rmRf_docroots (hout _ (by simp)),
    rmRf_docroots (hout _ (by simp))]

lemma clear_files (t : TableSpace) (x : Name) (n : Int) :
    (s.clear t).files x n = if t.Owns x then none else s.files x n := by
  unfold clear
  rw [rmRf_files, rmRf_files, rmRf_files]
  by_cases h : t.Owns x
  · rw [if_pos h]
    obtain ⟨p, hp, hunder⟩ := h
    simp only [List.mem_cons, List.not_mem_nil, or_false] at hp
    rcases hp with rfl | rfl | rfl <;> simp [hunder]
  · rw [if_neg h, if_neg fun h' => h ⟨_, by simp, h'⟩, if_neg fun h' => h ⟨_, by simp, h'⟩,
      if_neg fun h' => h ⟨_, by simp, h'⟩]

lemma touches_clear (conf : List TableSpace) (j : Nat) (s : Server) :
    Touches conf j s (s.clear (spaceAt conf j)) where
  docroots _ h := clear_docroots h
  files x n h := by rw [clear_files, if_neg h]
  tokens i _ := by rw [clear_tokens]

end Server

lemma Touches.setToken (h : Touches conf j s s') (token : Nat) :
    Touches conf j s (s'.setToken j token) where
  docroots := h.docroots
  files := h.files
  tokens i hi := (Function.update_of_ne hi _ _).trans (h.tokens i hi)

lemma Touches.setDocroot (h : Touches conf j s s') (hown : (spaceAt conf j).qDocroot ≠ [])
    (r : Option Docroot) :
    Touches conf j s
      { s' with docroots := Function.update s'.docroots (spaceAt conf j).qDocroot r } where
  docroots x hx := by
    refine (Function.update_of_ne (fun heq => hx ?_) _ _).trans (h.docroots x hx)
    rw [heq]
    exact TableSpace.owns_self (by simp) hown
  files := h.files
  tokens := h.tokens

end Datacl
