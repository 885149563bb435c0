/-
EccFe.Engine.Signature — what a signature determines.

Without SHA-256 collisions a fingerprint determines its value up to the order of
dict items, so two signatures of one step are equal exactly when inputs,
configuration and tools are (`expectedSignature_eq_iff`).
-/
import EccFe.Engine.Provenance

namespace EccFe.Engine

open Python Tools.RtlInputs

theorem asciiText_inj : ∀ {cs ds : List Char}, cs.all isAscii = true → ds.all isAscii = true →
    asciiText cs = asciiText ds → cs = ds
  | [], [], _, _, _ => rfl
  | [], d :: ds, _, _, h => by simp [asciiText] at h
  | c :: cs, [], _, _, h => by simp [asciiText] at h
  | c :: cs, d :: ds, hc, hd, h => by
      rw [List.all_cons, Bool.and_eq_true] at hc hd
      simp only [asciiText, List.map_cons, List.cons.injEq] at h
      have hbyte : ∀ {x : Char}, isAscii x = true → (UInt8.ofNat x.toNat).toNat = x.toNat := by
        intro x hx
        simp only [isAscii, decide_eq_true_eq] at hx
        exact UInt8.toNat_ofNat_of_lt' (lt_trans hx (by decide))
      have hnat : c.toNat = d.toNat := by rw [← hbyte hc.1, ← hbyte hd.1, h.1]
      rw [Char.toNat_inj.mp hnat, asciiText_inj hc.2 hd.2 h.2]

section

variable {env env' : Env}

/-- A fingerprint determines its value up to the order of dict items. -/
theorem stableFingerprint_eq_iff (hinj : env.CollisionFree) (hsha : env'.sha256 = env.sha256)
    (v w : Json) : stableFingerprint env' v = stableFingerprint env w ↔ sortKeys v = sortKeys w := by
  rw [stableFingerprint, stableFingerprint, hsha, hinj.eq_iff]
  constructor
  · exact fun h => dumps_inj (asciiText_inj (dumps_isAscii v) (dumps_isAscii w) h)
  · intro h
    rw [dumps, dumps, h]

/-- The three hashes under a signature. -/
theorem signatureOf_eq_iff (hinj : env.CollisionFree) (hsha : env'.sha256 = env.sha256)
    (stepName input config tool input' config' tool' : String) :
    signatureOf env' stepName input' config' tool' = signatureOf env stepName input config tool ↔
      input' = input ∧ config' = config ∧ tool' = tool := by
  rw [signatureOf, signatureOf, stableFingerprint_eq_iff hinj hsha]
  constructor
  · intro h
    have hget := get_of_sortKeys_eq (by simp [Dict.keys]) (by simp [Dict.keys]) h
    have hinput := hget "input_fingerprint"
    have hconfig := hget "config_fingerprint"
    have htool := hget "tool_fingerprint"
    simp [Dict.get, sortKeys] at hinput hconfig htool
    exact ⟨hinput, hconfig, htool⟩
  · rintro ⟨rfl, rfl, rfl⟩
    rfl

theorem expectedSignature_eq_iff (hinj : env.CollisionFree) (hsha : env'.sha256 = env.sha256)
    (workspace workspace' : Workspace) (stepName tool : String) (upstream : Option Dict) :
    expectedSignature env' workspace' stepName tool upstream =
        expectedSignature env workspace stepName tool upstream ↔
      sortKeys (provenanceInputs env' workspace' upstream) =
          sortKeys (provenanceInputs env workspace upstream) ∧
        sortKeys (.obj (stepConfiguration workspace' (workspaceParameters env' workspace')
            stepName)) =
          sortKeys (.obj (stepConfiguration workspace (workspaceParameters env workspace)
            stepName)) ∧
        sortKeys (provenanceTools env' (workspaceParameters env' workspace') stepName tool) =
          sortKeys (provenanceTools env (workspaceParameters env workspace) stepName tool) := by
  rw [expectedSignature, expectedSignature, textAt_signature_build, textAt_signature_build,
    signatureOf_eq_iff hinj hsha, stableFingerprint_eq_iff hinj hsha,
    stableFingerprint_eq_iff hinj hsha, stableFingerprint_eq_iff hinj hsha]

/-- The source part of the inputs. -/
theorem provenanceInputs_eq_iff (workspace workspace' : Workspace) (upstream : Option Dict) :
    sortKeys (provenanceInputs env' workspace' upstream) =
        sortKeys (provenanceInputs env workspace upstream) ↔
      sortKeys (.obj (workspaceInputFingerprint env' workspace')) =
        sortKeys (.obj (workspaceInputFingerprint env workspace)) := by
  constructor
  · intro h
    have hget := get_of_sortKeys_eq (by simp [Dict.keys]) (by simp [Dict.keys]) h "source"
    simpa [Dict.get] using hget
  · intro h
    simp only [provenanceInputs, sortKeys, sortFields] at h ⊢
    rw [h]

end

end EccFe.Engine
