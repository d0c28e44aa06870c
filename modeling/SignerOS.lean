import SignerOS.Lib.Runs
import SignerOS.Lib.WrapSum
import SignerOS.Lib.Indexed
import SignerOS.Lib.Files
import SignerOS.Lib.Script
import SignerOS.Lib.ScriptRun
import SignerOS.Lib.Buffer
import SignerOS.Lib.Slots
import SignerOS.Lib.Decimal
import SignerOS.Lib.Mask
import SignerOS.Lib.Chain
import SignerOS.Lib.Cursor
import SignerOS.Lib.Traced
import SignerOS.Lib.Der
import SignerOS.Lib.Powering
import SignerOS.Lib.Lucas
import SignerOS.Lib.MordellCurve
import SignerOS.Lib.Ecdsa
import SignerOS.Lib.Radix
import SignerOS.Lib.LinearChecksum
import SignerOS.Lib.Fips180
import SignerOS.Common
import SignerOS.Entropy
import SignerOS.EntropyTheorems
import SignerOS.Datawatch
import SignerOS.DatawatchTheorems
import SignerOS.Wally
import SignerOS.Text
import SignerOS.Ownership
import SignerOS.OwnershipTheorems
import SignerOS.TextTheorems
import SignerOS.Vsize
import SignerOS.TxSize
import SignerOS.VsizeTheorems
import SignerOS.Summary
import SignerOS.Verdict
import SignerOS.Findings
import SignerOS.FindingTexts
import SignerOS.Gate
import SignerOS.FileNames
import SignerOS.Engine
import SignerOS.Bookkeeping
import SignerOS.WalletExport
import SignerOS.Writers
import SignerOS.SecureString
import SignerOS.Session
import SignerOS.World
import SignerOS.LoadTheorems
import SignerOS.GateTheorems
import SignerOS.SignTheorems
import SignerOS.SlotTheorems
import SignerOS.ChangeTheorems
import SignerOS.ClearKeyTheorems
import SignerOS.FindingsTheorems
import SignerOS.DriftTheorems
import SignerOS.SummaryTheorems
import SignerOS.AmountTheorems
import SignerOS.WriterTheorems
import SignerOS.FileNameTheorems
import SignerOS.WriterPaths
import SignerOS.ExportFileTheorems
import SignerOS.SecureStringTheorems
import SignerOS.SecureStringRefinement
import SignerOS.SecureStringBounds
import SignerOS.SecureStringWords
import SignerOS.SecureStringEdits
import SignerOS.UnknownSlots
import SignerOS.ExportTheorems
import SignerOS.ExportPaths
import SignerOS.Ui.Secrets
import SignerOS.Ui.Shared
import SignerOS.Ui.SignScreen
import SignerOS.Ui.CreateScreen
import SignerOS.Ui.ImportScreen
import SignerOS.Ui.Touchpad
import SignerOS.Ui.TouchReports
import SignerOS.Ui.AppWindow
import SignerOS.Ui.SeedView
import SignerOS.Ui.SecretsTheorems
import SignerOS.Ui.GridTheorems
import SignerOS.Ui.WindowTheorems
import SignerOS.Ui.Frames
import SignerOS.Ui.NavigationTheorems
import SignerOS.Ui.SignScreenTheorems
import SignerOS.Ui.SigningTheorems
import SignerOS.Ui.FrozenTheorems
import SignerOS.Ui.CreateScreenTheorems
import SignerOS.Ui.VerifyGridTheorems
import SignerOS.Ui.ImportScreenTheorems
import SignerOS.Ui.TouchpadTheorems
import SignerOS.Ui.TapTheorems
import SignerOS.Verifier.Codec
import SignerOS.Verifier.CodecTheorems
import SignerOS.Verifier.Signature
import SignerOS.Verifier.Curve
import SignerOS.Verifier.CurveTheorems
import SignerOS.Verifier.EcdsaTheorems
import SignerOS.Verifier.Hash
import SignerOS.Verifier.Base58
import SignerOS.Verifier.HdKey
import SignerOS.Verifier.HdKeyTheorems
import SignerOS.Verifier.HdKeyStrings
import SignerOS.Verifier.Bech32
import SignerOS.Verifier.Bech32Theorems
import SignerOS.Verifier.Sighash
import SignerOS.Verifier.Verify
import SignerOS.Verifier.VerifyTheorems
import SignerOS.Verifier.Addresses
import SignerOS.Verifier.AddressTheorems
import SignerOS.Verifier.ExportAgreement
import SignerOS.Verifier.Generate
import SignerOS.Verifier.GenerateTheorems
import SignerOS.Lib.Fallible
import SignerOS.SignerSession
import SignerOS.RamWipe
import SignerOS.FileList
import SignerOS.SelfTest
import SignerOS.SelfTestTheorems
import SignerOS.SelfTestOutcome
import SignerOS.Kiosk
import SignerOS.KioskSession
