import CoinVault.Archive
import CoinVault.CoinDB.Keychain
import CoinVault.CoinDB.KeychainStore
import CoinVault.CoinDB.AccountBin
import CoinVault.CoinDB.Account
import CoinVault.CoinDB.ExportProperties
import CoinVault.CoinDB.Tx
import CoinVault.CoinDB.TxOutView
