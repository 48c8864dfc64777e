/-
The layout of a certificate dump and what is stored of it: the certificates
alone decide on the fingerprints and on the rows of the shared table.

* `newCertificates_congr`, `idByFp_congr`: templates do not matter to the rows
  inserted, nor to the ids read back;
* `parseCertificates_layout`: two dumps of the same certificates, however they
  are laid out, are parsed to them and stored as the same rows.
-/
import AdcsConnector.DumpParser
import AdcsConnector.Persistence

namespace AdcsConnector

open Text

variable {rows rows' : List ParseResult}

/-! ### What is stored depends on the certificates only -/

lemma fingerprints_congr (h : rows.map (·.certificate) = rows'.map (·.certificate)) :
    fingerprints rows = fingerprints rows' := by
  have hmap : ∀ total : List ParseResult,
      fingerprints total = (total.map (·.certificate)).map certificateFingerprint := by
    intro total
    rw [fingerprints, List.map_map]
    rfl
  rw [hmap, hmap, h]

/-- The certificates of the deduplicated dictionary. -/
lemma mapValues_uniqueCertificates (total : List ParseResult) :
    Dict.mapValues (·.certificate) (uniqueCertificates total) =
      Dict.ofPairs ((fingerprints total).zip (total.map (·.certificate))) := by
  rw [uniqueCertificates, Dict.mapValues_ofPairs, Dict.mapValues, List.zip_map_right]
  rfl

lemma mapValues_uniqueCertificates_congr
    (h : rows.map (·.certificate) = rows'.map (·.certificate)) :
    Dict.mapValues (·.certificate) (uniqueCertificates rows) =
      Dict.mapValues (·.certificate) (uniqueCertificates rows') := by
  rw [mapValues_uniqueCertificates, mapValues_uniqueCertificates, fingerprints_congr h, h]

/-- Equal certificates give the same rows to insert. -/
lemma newCertificates_congr (h : rows.map (·.certificate) = rows'.map (·.certificate)) :
    newCertificates rows = newCertificates rows' := by
  have hmap : ∀ total : List ParseResult, newCertificates total =
      Dict.sortedItems (Dict.mapValues (·.certificate) (uniqueCertificates total)) := by
    intro total
    rw [← Dict.mapValues_sortedItems]
    rfl
  rw [hmap, hmap, mapValues_uniqueCertificates_congr h]

/-- Equal certificates are given the same ids, whatever is visible. -/
lemma idByFp_congr (h : rows.map (·.certificate) = rows'.map (·.certificate))
    (visible : List Certificate) :
    idByFp visible (Dict.keys (uniqueCertificates rows)) =
      idByFp visible (Dict.keys (uniqueCertificates rows')) := by
  rw [← Dict.keys_mapValues (·.certificate) (uniqueCertificates rows),
    mapValues_uniqueCertificates_congr h, Dict.keys_mapValues]

/-! ### Two layouts -/

/-- **The certificate string does not depend on the layout.** Every rendering of
a list of rows is parsed to exactly these rows, and two renderings of the same
certificates have the same fingerprints, insert the same rows into the shared
table and are given the same ids of it. -/
theorem parseCertificates_layout {text text' : String} (h : Renders rows text)
    (h' : Renders rows' text') (hsame : rows.map (·.certificate) = rows'.map (·.certificate))
    {inputData inputData' : Response} (hout : inputData.stdOut = text.toUTF8)
    (hout' : inputData'.stdOut = text'.toUTF8) :
    parseCertificates inputData = .ok rows ∧ parseCertificates inputData' = .ok rows' ∧
      fingerprints rows = fingerprints rows' ∧ newCertificates rows = newCertificates rows' ∧
      ∀ visible, idByFp visible (Dict.keys (uniqueCertificates rows)) =
        idByFp visible (Dict.keys (uniqueCertificates rows')) :=
  ⟨parseCertificates_of_renders h hout, parseCertificates_of_renders h' hout',
    fingerprints_congr hsame, newCertificates_congr hsame, idByFp_congr hsame⟩

/-! ### A sample in two layouts -/

def webServer : ParseResult := ⟨"WebServer", "TUlJQzd=="⟩

def user : ParseResult := ⟨"User", "TUlJQ0E="⟩

lemma sample_printable : ∀ row ∈ [webServer, user], row.Printable := by
  intro row hrow
  fin_cases hrow
  · exact ⟨by decide, by decide, List.all_eq_true.mp (by decide)⟩
  · exact ⟨by decide, by decide, List.all_eq_true.mp (by decide)⟩

/-- The lines of the first row with armour, cut into three lines, each with a carriage
return, and a blank line after them. -/
def wrappedLines : List (List Char) := [
  "RowId               : 7\r".toList,
  "CertificateTemplate : WebServer\r".toList,
  "RawCertificate      : -----BEGIN CERTIFICATE-----\r".toList,
  "                      TUlJ\r".toList,
  "                      Qzd==\r".toList,
  "                      -----END CERTIFICATE-----\r".toList,
  "Properties          : \x7b\x7d\r".toList,
  "\r".toList]

lemma wrapped_row : RowLines webServer wrappedLines := by
  have htemplate : IsField "CertificateTemplate" "WebServer".toList
      "CertificateTemplate : WebServer\r".toList :=
    ⟨[], " WebServer\r".toList, by simp, by simp, by decide⟩
  have hraw : IsField "RawCertificate" beginArmour
      "RawCertificate      : -----BEGIN CERTIFICATE-----\r".toList :=
    ⟨"     ".toList, " -----BEGIN CERTIFICATE-----\r".toList, by simp, by simp, by decide⟩
  have hconts : List.Forall₂ IsContinuation ["TUlJ".toList, "Qzd==".toList, endArmour]
      ["                      TUlJ\r".toList, "                      Qzd==\r".toList,
        "                      -----END CERTIFICATE-----\r".toList] :=
    .cons ⟨by decide, by decide⟩ (.cons ⟨by decide, by decide⟩
      (.cons ⟨by decide, by decide⟩ .nil))
  have hsplit : IsSplit webServer.certificate.toList
      [beginArmour, "TUlJ".toList, "Qzd==".toList, endArmour] :=
    ⟨[beginArmour], ["TUlJ".toList, "Qzd==".toList], [endArmour], .inr rfl, .inr rfl, by decide,
      rfl⟩
  exact @RowLines.mk webServer ["RowId               : 7\r".toList] [] _ ["\r".toList] _ _
    "Properties          : \x7b\x7d\r".toList _ _ (by decide) htemplate (by simp) hraw hconts
    (sample_printable _ List.mem_cons_self).base64 hsplit (by decide) ⟨'P', _, rfl, by decide⟩
    (by decide)

/-- The lines of the second row, cut into two without armour, and with another column
between the two known ones. -/
def brokenLines : List (List Char) := [
  "CertificateTemplate : User\r".toList,
  "RowId               : 8\r".toList,
  "RawCertificate      : TUlJQ0\r".toList,
  "                      E=\r".toList,
  "Properties          : \x7b\x7d\r".toList]

lemma broken_row : RowLines user brokenLines := by
  have htemplate : IsField "CertificateTemplate" "User".toList
      "CertificateTemplate : User\r".toList :=
    ⟨[], " User\r".toList, by simp, by simp, by decide⟩
  have hraw : IsField "RawCertificate" "TUlJQ0".toList
      "RawCertificate      : TUlJQ0\r".toList :=
    ⟨"     ".toList, " TUlJQ0\r".toList, by simp, by simp, by decide⟩
  have hconts : List.Forall₂ IsContinuation ["E=".toList] ["                      E=\r".toList] :=
    .cons ⟨by decide, by decide⟩ .nil
  have hsplit : IsSplit user.certificate.toList ["TUlJQ0".toList, "E=".toList] :=
    ⟨[], ["TUlJQ0".toList, "E=".toList], [], .inl rfl, .inl rfl, by decide, rfl⟩
  exact @RowLines.mk user [] ["RowId               : 8\r".toList] _ [] _ _
    "Properties          : \x7b\x7d\r".toList _ _ (by simp) htemplate (by decide) hraw hconts
    (sample_printable _ (by simp)).base64 hsplit (by decide) ⟨'P', _, rfl, by decide⟩ (by simp)

/-- The text of both rows, wrapped. -/
def wrappedText : String := String.ofList (unlines (wrappedLines ++ brokenLines ++ ["\r".toList]))

lemma wrapped_renders : Renders [webServer, user] wrappedText := by
  refine @Renders.mk _ _ [] ["\r".toList] [wrappedLines, brokenLines] (by simp) (by decide)
    (.cons wrapped_row (.cons broken_row .nil)) ?_ ?_ (by simp [wrappedText])
  · rintro l ⟨rfl⟩
    exact ⟨'R', _, rfl, by decide⟩
  · decide +kernel

/-- The sample on one line a certificate, and wrapped. -/
theorem parseCertificates_layout_sample :
    parseCertificates (printedText (formatList [webServer, user])) = .ok [webServer, user] ∧
      parseCertificates (printedText wrappedText) = .ok [webServer, user] := by
  obtain ⟨hlist, hwrapped, -⟩ := parseCertificates_layout (renders_formatList sample_printable)
    wrapped_renders rfl (printedText_stdOut _) (printedText_stdOut _)
  exact ⟨hlist, hwrapped⟩

end AdcsConnector
