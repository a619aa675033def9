import AuditTrail.Proofs.LedgerFile.Export
import AuditTrail.Proofs.Service.Run
import AuditTrail.Proofs.Signature.Text
/-! # The copy of the ledger

As long as no write fails, the export file of a run holds what it held before and the line of each
entry of the ledger (`Site.holds_run`). So reading it gives what it read as before and the entries of
the ledger, exactly when the details of all these entries are plain, and its verification is that of
the ledger, for the signer of the run as for anyone who knows its public key. -/

namespace AuditTrail
set_option autoImplicit false

open LedgerFile (Holds Ready Fresh Ended copied)

/-! ## Checking with the public key -/

section Checker
variable {a b : Signer} (hscheme : a.scheme = b.scheme) (hkey : a.publicKey? = b.publicKey?)
include hscheme hkey

theorem Entry.signatureBreach_congr (e : Entry) :
    e.signatureBreach (some a) = e.signatureBreach (some b) := by
  have htext := Signer.verifyText_congr hscheme hkey e.signature e.hash e.time
  rw [Entry.signatureBreach, Entry.signatureBreach, htext, hkey]

theorem Entry.breachesFrom_congr (es : List Entry) (index : Nat) (before : Option Entry) :
    Entry.breachesFrom (some a) index before es = Entry.breachesFrom (some b) index before es := by
  induction es generalizing index before with
  | nil => rfl
  | cons e rest ih =>
    rw [Entry.breachesFrom, Entry.breachesFrom, ih, Entry.breaches, Entry.breaches,
      Entry.signatureBreach_congr hscheme hkey]

theorem Verification.of_congr (now : Instant) (es : List Entry) :
    Verification.of (some a) now es = Verification.of (some b) now es := by
  rw [Verification.of, Verification.of, Entry.breachesFrom_congr hscheme hkey]
  rfl

end Checker

/-- The signers that check what a signer has signed: itself, and the one that knows its public key
alone. -/
def Signer.CheckedBy (signer checker : Signer) : Prop :=
  checker = signer ∨ ∃ key, signer.publicKey? = some key ∧ checker = .verifier signer.scheme key

theorem Signer.CheckedBy.verification_eq {signer checker : Signer} (h : signer.CheckedBy checker)
    (now : Instant) (es : List Entry) :
    Verification.of (some checker) now es = Verification.of (some signer) now es := by
  rcases h with rfl | ⟨key, hkey, rfl⟩
  · rfl
  · exact @Verification.of_congr (.verifier signer.scheme key) signer rfl hkey.symm now es

/-! ## Runs -/

/-- None of the writes fails that as many recordings make. -/
def FileStore.Writes (files : FileStore) (count : Nat) : Prop :=
  ∀ k, files.writes ≤ k → k < files.writes + count → files.failures k = none

/-- The standard configuration with a copy of the ledger. -/
def Config.copying : Config := { Config.standard with exportPath := some "audit.jsonl" }

/-- Surroundings in which nothing is there but the copy, without any entry. -/
def Surroundings.copying : Surroundings :=
  { Surroundings.bare with
    files := Surroundings.bare.files.put ["audit.jsonl"] (.file .empty) }

/-- The service that copies its ledger, before anything is recorded. -/
def Service.copying (signer : Signer) : Service :=
  ⟨.copying, signer, .empty, .of .copying, some ["audit.jsonl"]⟩

theorem Service.start_copying (signer : Signer) :
    Service.start .copying signer .bare = .ok (.copying signer, .copying) := rfl

namespace Site

variable {path : String} {place : Place} {bytes : ByteArray}

/-- What a run without failing writes leaves in the export file. -/
theorem holds_run (site : Site) (hplace : site.service.exportPlace = some place)
    (ops : List (Instant × Operation)) (written : site.around.files.Writes (recordTimes ops).length)
    (h : Holds site.around.files path place (copied bytes site.service.ledger.entries)) :
    Holds (site.run ops).around.files path place
      (copied bytes (site.run ops).service.ledger.entries) := by
  induction ops generalizing site with
  | nil => exact h
  | cons first rest ih =>
    obtain ⟨now, operation⟩ := first
    have hstay : (site.perform now operation).2.service.exportPlace = some place :=
      (site.perform_config now operation).2.2.trans hplace
    rcases site.perform_cases now operation with ⟨event, e, ho, -, hl, hf⟩ | ⟨ht, hl, hf⟩
    · rw [ho, recordTimes, List.length_cons] at written
      have hfiles : (site.perform now operation).2.around.files =
          (site.around.files.append place (LedgerFile.writeLine e)).2 := by
        rw [hf, hplace]
        rfl
      have hok : site.around.files.failures site.around.files.writes = none :=
        written _ (Nat.le_refl _) (by omega)
      obtain ⟨hholds, hfailures, hwrites⟩ := h.append hok (LedgerFile.writeLine e)
      refine ih _ hstay ?_ ?_
      · intro k hk hlt
        rw [hfiles, hwrites] at hk hlt
        rw [hfiles, hfailures]
        exact written k (by omega) (by omega)
      · rw [hfiles, hl, Ledger.push, LedgerFile.copied_concat]
        exact hholds
    · rw [ht rest] at written
      refine ih _ hstay ?_ ?_
      · rw [hf]
        exact written
      · rw [hf, hl]
        exact h

/-- What holds of the details of all events that a run records holds of the details of all entries. -/
theorem details_run {p : EventDetails → Prop} (site : Site) (ops : List (Instant × Operation))
    (hops : ∀ now event, (now, .record event) ∈ ops → p event.details)
    (h : ∀ e ∈ site.service.ledger.entries, p e.details) :
    ∀ e ∈ (site.run ops).service.ledger.entries, p e.details := by
  induction ops generalizing site with
  | nil => exact h
  | cons first rest ih =>
    obtain ⟨now, operation⟩ := first
    refine ih _ (fun time event hmem => hops time event (List.mem_cons_of_mem _ hmem)) ?_
    rcases site.perform_cases now operation with ⟨event, e, ho, he, hl, -⟩ | ⟨-, hl, -⟩
    · intro e' he'
      rw [hl, Ledger.push] at he'
      rcases List.mem_append.mp he' with hold | hnew
      · exact h e' hold
      · rw [List.mem_singleton.mp hnew, he]
        refine hops now event ?_
        rw [ho]
        exact List.mem_cons_self
    · rw [hl]
      exact h

section Started
variable {config : Config} {signer : Signer} {around around' : Surroundings} {service : Service}
  {before : List Entry}

theorem holds_of_start (started : Service.start config signer around = .ok (service, around'))
    (hpath : config.exportPath = some path) (hplace : service.exportPlace = some place)
    (ready : Ready around.files place before) (ops : List (Instant × Operation))
    (written : around.files.Writes (recordTimes ops).length) :
    ∃ bytes, Ended bytes.data.toList ∧ LedgerFile.read bytes = .ok before ∧
      Holds ((Site.mk service around').run ops).around.files path place
        (copied bytes ((Site.mk service around').run ops).service.ledger.entries) := by
  obtain ⟨exportPlace, files, hopen, hservice, haround⟩ := Service.start_eq started
  rw [hservice] at hplace
  have hopened : LedgerFile.openExport around.files path = .ok (place, files) := by
    rw [Service.openExport, hpath] at hopen
    simp only at hopen
    split at hopen
    · rename_i heq
      cases hopen
      rw [heq, Option.some.inj hplace]
    · cases hopen
  obtain ⟨bytes, hholds, hended, hread, hfailures, hwrites⟩ :=
    LedgerFile.openExport_holds ready hopened
  refine ⟨bytes, hended, hread, holds_run _ ?_ ops ?_ ?_⟩
  · rw [hservice]
    exact hplace
  · intro k hk hlt
    rw [haround] at hk hlt ⊢
    rw [hwrites] at hk hlt
    rw [hfailures]
    exact written k hk hlt
  · rw [hservice, haround]
    exact hholds

theorem load_of_start_iff (started : Service.start config signer around = .ok (service, around'))
    (hpath : config.exportPath = some path) (hplace : service.exportPlace = some place)
    (ready : Ready around.files place before) (ops : List (Instant × Operation))
    (written : around.files.Writes (recordTimes ops).length)
    (hdoubles : ∀ e ∈ ((Site.mk service around').run ops).service.ledger.entries, e.DoublesReadBack)
    (shallow : ∀ e ∈ ((Site.mk service around').run ops).service.ledger.entries,
      e.toJson.levels ≤ Json.maxLevels) :
    LedgerFile.load ((Site.mk service around').run ops).around.files path =
        .ok (before ++ ((Site.mk service around').run ops).service.ledger.entries) ↔
      ∀ e ∈ ((Site.mk service around').run ops).service.ledger.entries,
        e.details.isPlain = true := by
  obtain ⟨bytes, hended, hread, hholds⟩ := holds_of_start started hpath hplace ready ops written
  rw [hholds.load, LedgerFile.read_copied_iff hended hread]
  constructor
  · intro h e he
    exact (e.read?_render_iff (hdoubles e he) (shallow e he)).mp (h e he)
  · intro h e he
    exact (e.read?_render_iff (hdoubles e he) (shallow e he)).mpr (h e he)

end Started

/-- **The copy of the ledger.** Let a service copy its entries to a file that was missing, empty, or
read as some entries and ended with the end of a line. While no write fails, the doubles of all entries
are read back from their texts and no entry nests deeper than the reader goes, the file reads as those
entries and the ledger, and where it was missing or empty its verification by the signer or with the
public key is that of the ledger, exactly when the details of all entries are plain. -/
theorem copy_of_run_iff (config : Config) (signer : Signer) (around around' : Surroundings)
    (service : Service) (started : Service.start config signer around = .ok (service, around'))
    (path : String) (hpath : config.exportPath = some path)
    (place : Place) (hplace : service.exportPlace = some place)
    (before : List Entry) (ready : Ready around.files place before)
    (ops : List (Instant × Operation)) (written : around.files.Writes (recordTimes ops).length)
    (hdoubles : ∀ e ∈ ((Site.mk service around').run ops).service.ledger.entries, e.DoublesReadBack)
    (shallow : ∀ e ∈ ((Site.mk service around').run ops).service.ledger.entries,
      e.toJson.levels ≤ Json.maxLevels) :
    let after := (Site.mk service around').run ops
    (LedgerFile.load after.around.files path = .ok (before ++ after.service.ledger.entries) ∧
      (Fresh around.files place → ∀ checker, signer.CheckedBy checker → ∀ now time,
        LedgerFile.verify after.around.files path (some checker) time =
          .ok { after.service.verify now with time })) ↔
    ∀ e ∈ after.service.ledger.entries, e.details.isPlain = true := by
  intro after
  have hload : LedgerFile.load after.around.files path =
      .ok (before ++ after.service.ledger.entries) ↔
        ∀ e ∈ after.service.ledger.entries, e.details.isPlain = true :=
    load_of_start_iff started hpath hplace ready ops written hdoubles shallow
  constructor
  · intro h
    exact hload.mp h.1
  · intro hplain
    have hread := hload.mpr hplain
    refine ⟨hread, ?_⟩
    intro hfresh checker hchecker now time
    rw [ready.eq_nil_of_fresh hfresh, List.nil_append] at hread
    have hsigner : after.service.signer = signer := signer_of_start started ops
    obtain ⟨bytes, -, -, hholds⟩ := holds_of_start started hpath hplace ready ops written
    rw [hholds.load] at hread
    rw [hholds.verify, hread, Service.verify, hsigner]
    exact congrArg Except.ok (hchecker.verification_eq time _)

/-- Two recordings copied to a file that was missing, and checked with the public key. -/
theorem copy_of_run_iff_missing :
    let signer : Signer := ⟨.secp256k1, .signing ⟨1, by decide⟩⟩
    let ops : List (Instant × Operation) :=
      [(.startOf ⟨2024, 3, 1, by decide⟩, .record (.takedown "TD-1" "cid" "a@x.example" "Work")),
       (.startOf ⟨2024, 3, 2, by decide⟩, .record (.reinstatement "cid" "user-1" "reason"))]
    let after := (Site.mk (.copying signer) .copying).run ops
    Service.start .copying signer .bare = .ok (.copying signer, .copying) ∧
    Ready Surroundings.bare.files ["audit.jsonl"] [] ∧
    Surroundings.bare.files.Writes (recordTimes ops).length ∧
    (∀ e ∈ after.service.ledger.entries, e.DoublesReadBack) ∧
    (∀ e ∈ after.service.ledger.entries, e.toJson.levels ≤ Json.maxLevels) ∧
    (∀ e ∈ after.service.ledger.entries, e.details.isPlain = true) ∧
    LedgerFile.load after.around.files "audit.jsonl" = .ok after.service.ledger.entries ∧
    LedgerFile.verify after.around.files "audit.jsonl"
        (some (.verifier signer.scheme (signer.scheme.publicKey ⟨1, by decide⟩))) .unset =
      .ok (after.service.verify .unset) := by
  intro signer ops after
  have started := Service.start_copying signer
  have fresh : Fresh Surroundings.bare.files ["audit.jsonl"] := Or.inl rfl
  have ready := LedgerFile.ready_of_fresh fresh
  have written : Surroundings.bare.files.Writes (recordTimes ops).length := fun _ _ _ => rfl
  have hops : ∀ now event, (now, .record event) ∈ ops → event.details.isPlain = true ∧
      event.details.toJson.levels < Json.maxLevels ∧ event.details.toJson.doubles = [] := by
    intro now event hevent
    simp only [ops, List.mem_cons, List.not_mem_nil, or_false, Prod.mk.injEq,
      Operation.record.injEq] at hevent
    rcases hevent with ⟨-, rfl⟩ | ⟨-, rfl⟩
    · exact ⟨rfl, by decide, rfl⟩
    · exact ⟨rfl, by decide, rfl⟩
  clear_value ops
  have hdetails : ∀ e ∈ after.service.ledger.entries, e.details.isPlain = true ∧
      e.details.toJson.levels < Json.maxLevels ∧ e.details.toJson.doubles = [] := by
    refine @details_run (fun d => d.isPlain = true ∧ d.toJson.levels < Json.maxLevels ∧
      d.toJson.doubles = []) _ ops hops ?_
    intro e he
    cases he
  have hdoubles : ∀ e ∈ after.service.ledger.entries, e.DoublesReadBack :=
    fun e he => Entry.doublesReadBack_of_nil (hdetails e he).2.2
  have shallow : ∀ e ∈ after.service.ledger.entries, e.toJson.levels ≤ Json.maxLevels := by
    intro e he
    exact (e.levels_toJson_le_iff (by decide)).mpr (hdetails e he).2.1
  have hplain : ∀ e ∈ after.service.ledger.entries, e.details.isPlain = true :=
    fun e he => (hdetails e he).1
  obtain ⟨hload, hverify⟩ := (copy_of_run_iff .copying signer .bare .copying (.copying signer)
    started "audit.jsonl" rfl ["audit.jsonl"] rfl [] ready ops written hdoubles
    shallow).mpr hplain
  refine ⟨started, ready, written, hdoubles, shallow, hplain, hload, ?_⟩
  exact hverify fresh _ (Or.inr ⟨_, rfl, rfl⟩) .unset .unset

/-- Facts in which the key that stands for a text begins an object. -/
def textLookalike : FreeFields where
  members := [("m", .object [(Json.embeddedKey, .string "1"), ("a", .nat 1)])]
  normal := by decide +kernel

/-- A recording without doubles that is not read back from the copy, although no write fails and its
entry nests no deeper than the reader goes. -/
theorem copy_fails_on_textLookalike :
    let signer : Signer := .keyless .secp256k1
    let ops : List (Instant × Operation) :=
      [(.startOf ⟨2024, 3, 1, by decide⟩,
        .record (.plain "user_report" "u" "t" "flagged" (.generic textLookalike)))]
    let after := (Site.mk (.copying signer) .copying).run ops
    Service.start .copying signer .bare = .ok (.copying signer, .copying) ∧
    Fresh Surroundings.bare.files ["audit.jsonl"] ∧
    Surroundings.bare.files.Writes (recordTimes ops).length ∧
    (∀ e ∈ after.service.ledger.entries, e.DoublesReadBack) ∧
    (∀ e ∈ after.service.ledger.entries, e.toJson.levels ≤ Json.maxLevels) ∧
    LedgerFile.load after.around.files "audit.jsonl" ≠ .ok after.service.ledger.entries := by
  intro signer ops after
  have started := Service.start_copying signer
  have fresh : Fresh Surroundings.bare.files ["audit.jsonl"] := Or.inl rfl
  have ready := LedgerFile.ready_of_fresh fresh
  have written : Surroundings.bare.files.Writes (recordTimes ops).length := fun _ _ _ => rfl
  have shallow : ∀ e ∈ after.service.ledger.entries, e.toJson.levels ≤ Json.maxLevels := by
    refine List.forall_mem_cons.mpr ⟨?_, ?_⟩
    · exact (Entry.levels_toJson_le_iff _ (by decide)).mpr (by decide)
    · intro e he
      cases he
  have hdoubles : ∀ e ∈ after.service.ledger.entries, e.DoublesReadBack := by
    refine List.forall_mem_cons.mpr ⟨?_, ?_⟩
    · exact Entry.doublesReadBack_of_nil rfl
    · intro e he
      cases he
  refine ⟨started, fresh, written, hdoubles, shallow, ?_⟩
  intro hload
  have hplain := (load_of_start_iff started rfl rfl ready ops written hdoubles shallow).mp hload
  exact absurd (hplain _ (List.mem_singleton.mpr rfl)) (by decide)

end Site

end AuditTrail
